/-
# `Toolbar.Proofs.Text.Lines` — lines, and texts without their ends

Splitting into lines, trimming and cutting are defined by how they pass through a text.  Here they
are described by what the text is put together from: a text is its lines with what ends them, a text
is its trimmed part between characters that trimming removes, and a cut text is two parts around the
first separator.

    Lines          the lines that a text is put together from        `lines_iff`
    Stripped       the part of a text between the stripped ends      `stripped_iff`
    cutAt?_eq_some_iff
-/
import Toolbar.Text.Blank
import Toolbar.Text.Search

namespace Toolbar.Text

variable {cs line rest t : List Char} {ls : List (List Char)}

/-! ## Lines -/

/-- No character of a text ends a line. -/
def Unbroken (cs : List Char) : Prop :=
  ∀ c ∈ cs, isLineBreak c = false

/-- What ends a line: a carriage return with a line feed, or any one character that ends lines. -/
inductive LineEnd : List Char → Prop
  | pair : LineEnd ['\r', '\n']
  | single {c : Char} : isLineBreak c = true → LineEnd [c]

/-- A text is put together from lines: each is ended, except that the last one need not be when it
has a character.  A carriage return does not end a line by itself when a line feed follows. -/
inductive Lines : List Char → List (List Char) → Prop
  | nil : Lines [] []
  | last {line : List Char} : line ≠ [] → Unbroken line → Lines line [line]
  | cons {line stop rest : List Char} {ls : List (List Char)} : Unbroken line → LineEnd stop →
      ¬ (stop = ['\r'] ∧ rest.head? = some '\n') → Lines rest ls →
      Lines (line ++ stop ++ rest) (line :: ls)

theorem linesFrom_cons {c : Char} (notPair : ¬ (c = '\r' ∧ rest.head? = some '\n')) :
    linesFrom line (c :: rest) =
      if isLineBreak c then line.reverse :: linesFrom [] rest else linesFrom (c :: line) rest := by
  rw [linesFrom]
  rintro rest' rfl rfl
  exact notPair ⟨rfl, rfl⟩

/-- The current line grows by what does not end it. -/
theorem linesFrom_unbroken (unbroken : Unbroken cs) (line rest : List Char) :
    linesFrom line (cs ++ rest) = linesFrom (cs.reverse ++ line) rest := by
  induction cs generalizing line with
  | nil => rfl
  | cons c cs ih =>
      obtain ⟨hc, unbroken⟩ := List.forall_mem_cons.mp unbroken
      have notPair : ¬ (c = '\r' ∧ (cs ++ rest).head? = some '\n') := by
        rintro ⟨rfl, -⟩
        cases hc
      rw [List.cons_append, linesFrom_cons notPair, hc, if_neg Bool.false_ne_true, ih unbroken,
        List.reverse_cons, List.append_assoc, List.singleton_append]

theorem linesFrom_stop {stop : List Char} (ends : LineEnd stop)
    (notPair : ¬ (stop = ['\r'] ∧ rest.head? = some '\n')) (line : List Char) :
    linesFrom line (stop ++ rest) = line.reverse :: linesFrom [] rest := by
  cases ends with
  | pair => rfl
  | @single c hc =>
      have notPair : ¬ (c = '\r' ∧ rest.head? = some '\n') := fun h =>
        notPair ⟨congrArg (fun c => [c]) h.1, h.2⟩
      rw [List.singleton_append, linesFrom_cons notPair, if_pos hc]

/-- What was read of the current line, and the text, are put together from the lines. -/
theorem lines_linesFrom (line cs : List Char) (unbroken : Unbroken line) :
    Lines (line.reverse ++ cs) (linesFrom line cs) := by
  have read {line : List Char} (unbroken : Unbroken line) : Unbroken line.reverse :=
    fun c hc => unbroken c (List.mem_reverse.mp hc)
  induction line, cs using linesFrom.induct with
  | case1 line empty =>
      obtain rfl := List.isEmpty_iff.mp empty
      exact .nil
  | case2 line nonempty =>
      rw [linesFrom, if_neg nonempty, List.append_nil]
      exact .last (by simpa using nonempty) (read unbroken)
  | case3 line rest ih =>
      rw [linesFrom, List.append_cons, List.append_cons, List.append_assoc line.reverse]
      exact .cons (read unbroken) .pair (by simp) (ih nofun)
  | case4 line c rest notPair hc ih =>
      rw [linesFrom, if_pos hc, List.append_cons]
      · refine .cons (read unbroken) (.single hc) ?_ (ih nofun)
        rintro ⟨hstop, hhead⟩
        obtain ⟨rest, rfl⟩ := List.head?_eq_some_iff.mp hhead
        exact notPair rest (List.singleton_inj.mp hstop) rfl
      · exact notPair
  | case5 line c rest notPair hc ih =>
      rw [linesFrom, if_neg hc]
      · have grown := ih (List.forall_mem_cons.mpr ⟨by simpa using hc, unbroken⟩)
        rwa [List.reverse_cons, List.append_assoc, List.singleton_append] at grown
      · exact notPair

/-- There is one way in which a text is put together from lines. -/
theorem lines_iff : Lines cs ls ↔ ls = linesFrom [] cs := by
  constructor
  · intro h
    induction h with
    | nil => rfl
    | @last line nonempty unbroken =>
        have whole := linesFrom_unbroken unbroken [] []
        rw [List.append_nil, List.append_nil] at whole
        rw [whole, linesFrom, if_neg (by simpa using nonempty), List.reverse_reverse]
    | @cons line stop rest ls unbroken ends notPair _ ih =>
        rw [List.append_assoc, linesFrom_unbroken unbroken, linesFrom_stop ends notPair,
          List.append_nil, List.reverse_reverse, ih]
  · rintro rfl
    exact lines_linesFrom [] cs nofun

/-- The characters of the lines are characters of the text. -/
theorem Lines.mem (h : Lines cs ls) (hline : line ∈ ls) {c : Char} (hc : c ∈ line) : c ∈ cs := by
  induction h with
  | nil => cases hline
  | last => rwa [List.mem_singleton.mp hline] at hc
  | @cons first stop rest ls _ _ _ _ ih =>
      rw [List.append_assoc]
      rcases List.mem_cons.mp hline with rfl | hline
      · exact List.mem_append_left _ hc
      · exact List.mem_append_right _ (List.mem_append_right _ (ih hline))

/-! ## Ends -/

/-- `t` is what is left of `cs` between characters at both ends that satisfy `p`; itself it neither
begins nor ends with such a character. -/
def Stripped (p : Char → Bool) (cs t : List Char) : Prop :=
  ∃ before behind, cs = before ++ t ++ behind ∧ (∀ c ∈ before, p c = true) ∧
    (∀ c ∈ behind, p c = true) ∧ (∀ c, t.head? = some c ∨ t.getLast? = some c → p c = false)

theorem Stripped.mem {p : Char → Bool} (h : Stripped p cs t) {c : Char} (hc : c ∈ t) : c ∈ cs := by
  obtain ⟨before, behind, rfl, -⟩ := h
  exact List.mem_append_left _ (List.mem_append_right _ hc)

/-- What satisfies `p` is dropped up to the first character that does not. -/
theorem dropWhile_before {p : Char → Bool} {before : List Char} (h : ∀ c ∈ before, p c = true)
    (stops : ∀ c, rest.head? = some c → p c = false) : (before ++ rest).dropWhile p = rest := by
  rw [List.dropWhile_append_of_pos h]
  cases rest with
  | nil => rfl
  | cons c rest => exact List.dropWhile_cons_of_neg (by simp [stops c rfl])

theorem head?_dropWhile {p : Char → Bool} {c : Char} (h : (cs.dropWhile p).head? = some c) :
    p c = false := by
  have stops := List.head?_dropWhile_not p cs
  rwa [h] at stops

/-- A text is what was stripped in front, the stripped text, and what was stripped behind. -/
theorem append_stripBy (p : Char → Bool) (cs : List Char) :
    cs = cs.takeWhile p ++ stripBy p cs ++ ((cs.dropWhile p).reverse.takeWhile p).reverse := by
  rw [stripBy, List.append_assoc, ← List.reverse_append, List.takeWhile_append_dropWhile,
    List.reverse_reverse, List.takeWhile_append_dropWhile]

theorem stripped_stripBy (p : Char → Bool) (cs : List Char) : Stripped p cs (stripBy p cs) := by
  refine ⟨_, _, append_stripBy p cs, fun c hc => ?_, fun c hc => ?_, fun c hc => ?_⟩
  · exact List.all_eq_true.mp List.all_takeWhile c hc
  · exact List.all_eq_true.mp List.all_takeWhile c (List.mem_reverse.mp hc)
  · rcases hc with head | last
    · -- The stripped text begins where the text begins from which only the end is stripped.
      have split : cs.dropWhile p =
          stripBy p cs ++ ((cs.dropWhile p).reverse.takeWhile p).reverse := by
        rw [stripBy, ← List.reverse_append, List.takeWhile_append_dropWhile, List.reverse_reverse]
      have first : (cs.dropWhile p).head? = some c := by
        rw [split, List.head?_append, head]
        rfl
      exact head?_dropWhile first
    · rw [stripBy, List.getLast?_reverse] at last
      exact head?_dropWhile last

theorem stripped_iff {p : Char → Bool} : Stripped p cs t ↔ t = stripBy p cs := by
  constructor
  · rintro ⟨before, behind, rfl, hbefore, hbehind, hends⟩
    rw [stripBy]
    cases t with
    | nil =>
        have all : ∀ c ∈ before ++ behind, p c = true :=
          List.forall_mem_append.mpr ⟨hbefore, hbehind⟩
        have dropped : (before ++ behind ++ []).dropWhile p = [] := dropWhile_before all nofun
        rw [List.append_nil] at dropped ⊢
        rw [dropped]
        rfl
    | cons c t =>
        have reversed : ∀ c ∈ behind.reverse, p c = true := fun c hc =>
          hbehind c (List.mem_reverse.mp hc)
        have front : (before ++ (c :: t ++ behind)).dropWhile p = c :: t ++ behind :=
          dropWhile_before hbefore fun d hd => hends d (.inl hd)
        have back : (behind.reverse ++ (c :: t).reverse).dropWhile p = (c :: t).reverse :=
          dropWhile_before reversed fun d hd => hends d (.inr (List.head?_reverse.symm.trans hd))
        rw [List.append_assoc, front, List.reverse_append, back, List.reverse_reverse]
  · rintro rfl
    exact stripped_stripBy p cs

/-! ## Two parts -/

theorem cutAt?_eq_some_iff {sep : Char} {left right : List Char} :
    cutAt? sep cs = some (left, right) ↔ cs = left ++ sep :: right ∧ sep ∉ left := by
  induction cs generalizing left with
  | nil => simp [cutAt?]
  | cons c cs ih =>
      by_cases hc : c = sep
      · subst hc
        have found : cutAt? c (c :: cs) = some ([], cs) := if_pos (beq_self_eq_true c)
        rw [found]
        cases left with
        | nil => simp
        | cons d left =>
            constructor
            · rintro ⟨⟩
            · rintro ⟨h, notMem⟩
              obtain ⟨rfl, -⟩ := List.cons.inj h
              exact absurd List.mem_cons_self notMem
      · have further : cutAt? sep (c :: cs) = (cutAt? sep cs).map fun p => (c :: p.1, p.2) :=
          if_neg (by simpa using hc)
        rw [further]
        cases left with
        | nil => simp [hc]
        | cons d left =>
            constructor
            · intro h
              obtain ⟨⟨l, r⟩, hcut, heq⟩ := Option.map_eq_some_iff.mp h
              cases heq
              obtain ⟨rfl, notMem⟩ := ih.mp hcut
              exact ⟨rfl, List.not_mem_cons_of_ne_of_not_mem (Ne.symm hc) notMem⟩
            · rintro ⟨h, notMem⟩
              obtain ⟨rfl, rfl⟩ := List.cons.inj h
              rw [ih.mpr ⟨rfl, fun mem => notMem (List.mem_cons_of_mem _ mem)⟩]
              rfl

end Toolbar.Text
