/-
# `Toolbar.Proofs.Method.Positions` — cutting and padding at positions

Positions are integers without bounds, and a text is cut at every one of them.  The methods differ
in how they bring an end into the text and in what reversed ends mean:

    method         an end `i` of a text of `n` characters    reversed ends
    `substring`    `max 0 (min i n)`                         change places
    `slice`        `max (n + i) 0` if negative, `min i n`    leave nothing

The statements say where in the text the result stands (`Stands`), with the ends as integers; the
methods count with naturals.  Padding is described by its places: at place `k` stands the character
of the filling at `k` modulo its length (`FillsUp`).  The one fault is that of a padding that is
longer than any count of characters.

    Stands     what stands in a text between two positions
    Sliced     the same, and nothing between reversed ends
    FillsUp    what a text needs to reach a length
    Gives      a method of a text has a text for its result
-/
import Toolbar.Method.Call

namespace Toolbar.Method

open Text

variable {cs fill w : List Char}

/-! ## Cutting -/

/-- `w` stands in `cs` from position `a` up to position `b`. -/
def Stands (cs : List Char) (a b : Int) (w : List Char) : Prop :=
  ∃ before behind, cs = before ++ w ++ behind ∧ (before.length : Int) = a ∧
    (before.length + w.length : Int) = b

/-- What stands between two positions is determined by them. -/
theorem Stands.unique {a b : Int} {w' : List Char} (h : Stands cs a b w) (h' : Stands cs a b w') :
    w = w' := by
  obtain ⟨before, behind, split, start, stop⟩ := h
  obtain ⟨before', behind', split', start', stop'⟩ := h'
  rw [split, List.append_assoc, List.append_assoc] at split'
  have behindBefore := (List.append_inj split' (by omega)).2
  exact (List.append_inj behindBefore (by omega)).1

theorem stands_between {i j : Nat} (ordered : i ≤ j) (inside : j ≤ cs.length) :
    Stands cs i j (between i j cs) := by
  refine ⟨cs.take i, cs.drop j, ?_, ?_, ?_⟩
  · have upTo : cs.take i ++ between i j cs = cs.take j := by
      rw [between, ← Nat.min_eq_left ordered, ← List.take_take, Nat.min_eq_left ordered,
        List.take_append_drop]
    rw [upTo, List.take_append_drop]
  · rw [List.length_take]
    omega
  · rw [between, List.length_drop, List.length_take, List.length_take]
    omega

/-- Reversed ends leave nothing between them. -/
theorem between_eq_nil {i j : Nat} (reversed : j ≤ i) : between i j cs = [] := by
  rw [between, List.drop_eq_nil_iff, List.length_take]
  omega

/-- An end moved into a text. -/
def moved (size : Nat) (i : Int) : Int :=
  max 0 (min i size)

/-- An end moved into a text, a negative one counted from the end of the text. -/
def counted (size : Nat) (i : Int) : Int :=
  if i < 0 then max (size + i) 0 else min i size

theorem clamp_eq_moved (size : Nat) (i : Int) : (clamp size i : Int) = moved size i := by
  unfold clamp moved
  omega

theorem clamp_le (size : Nat) (i : Int) : clamp size i ≤ size :=
  Nat.min_le_right ..

theorem slicePosition_eq_counted (size : Nat) (i : Int) :
    (slicePosition size i : Int) = counted size i := by
  unfold slicePosition counted
  split <;> rw [clamp_eq_moved] <;> unfold moved <;> omega

theorem slicePosition_le (size : Nat) (i : Int) : slicePosition size i ≤ size := by
  unfold slicePosition
  split <;> exact clamp_le ..

theorem counted_size (size : Nat) : counted size size = size := by
  unfold counted
  omega

theorem stands_substring (cs : List Char) (i j : Int) :
    Stands cs (min (moved cs.length i) (moved cs.length j))
      (max (moved cs.length i) (moved cs.length j)) (substring cs i j) := by
  have inside : max (clamp cs.length i) (clamp cs.length j) ≤ cs.length :=
    Nat.max_le.mpr ⟨clamp_le .., clamp_le ..⟩
  have ordered : min (clamp cs.length i) (clamp cs.length j) ≤
      max (clamp cs.length i) (clamp cs.length j) :=
    Nat.le_trans (Nat.min_le_left ..) (Nat.le_max_left ..)
  have stands := stands_between ordered inside
  have first : ((min (clamp cs.length i) (clamp cs.length j) : Nat) : Int) =
      min (moved cs.length i) (moved cs.length j) := by
    rw [← clamp_eq_moved, ← clamp_eq_moved]
    omega
  have last : ((max (clamp cs.length i) (clamp cs.length j) : Nat) : Int) =
      max (moved cs.length i) (moved cs.length j) := by
    rw [← clamp_eq_moved, ← clamp_eq_moved]
    omega
  rwa [first, last] at stands

theorem substring_comm (cs : List Char) (i j : Int) : substring cs i j = substring cs j i := by
  dsimp only [substring]
  rw [Nat.min_comm, Nat.max_comm]

/-- Ends in order hold a piece of the text between them, and reversed ends hold nothing. -/
def Sliced (cs : List Char) (a b : Int) (w : List Char) : Prop :=
  if a ≤ b then Stands cs a b w else w = []

theorem sliced_slice (cs : List Char) (i j : Int) :
    Sliced cs (counted cs.length i) (counted cs.length j) (slice cs i j) := by
  unfold Sliced
  rw [← slicePosition_eq_counted, ← slicePosition_eq_counted]
  split
  next ordered => exact stands_between (Int.ofNat_le.mp ordered) (slicePosition_le ..)
  next reversed => exact between_eq_nil (by omega)

/-- Inside the text one character stands at a position, and outside there is none. -/
def IsAt (cs : List Char) (i : Int) (w : List Char) : Prop :=
  if 0 ≤ i ∧ i < cs.length then Stands cs i (i + 1) w else w = []

theorem isAt_charAt (cs : List Char) (i : Int) : IsAt cs i (charAt cs i) := by
  unfold IsAt charAt
  split
  next inside =>
    obtain ⟨k, rfl⟩ := Int.eq_ofNat_of_zero_le inside.1
    have hk : k < cs.length := Int.ofNat_lt.mp inside.2
    rw [if_neg (by omega), Int.toNat_natCast, List.getElem?_eq_getElem hk, Option.toList_some]
    refine ⟨cs.take k, cs.drop (k + 1), ?_, ?_, ?_⟩
    · rw [List.append_assoc, List.singleton_append, List.getElem_cons_drop, List.take_append_drop]
    · rw [List.length_take]
      omega
    · rw [List.length_take, List.length_singleton]
      omega
  next outside =>
    split
    · rfl
    next nonnegative =>
      rw [List.getElem?_eq_none (by omega), Option.toList_none]

/-! ## Padding -/

theorem getElem?_repeated (times : Nat) {k : Nat} (hk : k < times * fill.length) :
    (List.replicate times fill).flatten[k]? = fill[k % fill.length]? := by
  induction times generalizing k with
  | zero => omega
  | succ times ih =>
      rw [List.replicate_succ, List.flatten_cons]
      rcases Nat.lt_or_ge k fill.length with first | later
      · rw [List.getElem?_append_left first, Nat.mod_eq_of_lt first]
      · rw [List.getElem?_append_right later, Nat.mod_eq_sub_mod later]
        exact ih (by rw [Nat.succ_mul] at hk; omega)

theorem lt_repeated (filled : fill ≠ []) (count : Nat) :
    count < (count / fill.length + 1) * fill.length := by
  rw [Nat.mul_comm]
  exact Nat.lt_mul_div_succ count (List.length_pos_iff.mpr filled)

theorem length_filling (filled : fill ≠ []) (count : Nat) :
    (filling fill count).length = count := by
  have enough := lt_repeated filled count
  rw [filling, List.length_take, List.length_flatten, List.map_replicate, List.sum_replicate_nat]
  omega

theorem getElem?_filling (filled : fill ≠ []) {count k : Nat} (hk : k < count) :
    (filling fill count)[k]? = fill[k % fill.length]? := by
  rw [filling, List.getElem?_take_of_lt hk,
    getElem?_repeated _ (Nat.lt_trans hk (lt_repeated filled count))]

/-- `pad` has the characters that `cs` lacks to have `n`: those of `fill`, over and over. -/
structure FillsUp (cs fill : List Char) (n : Int) (pad : List Char) : Prop where
  length : (pad.length + cs.length : Int) = max (cs.length : Int) n
  place : ∀ k < pad.length, pad[k]? = fill[k % fill.length]?

theorem fillsUp_padding (filled : fill ≠ []) (cs : List Char) (n : Int) :
    FillsUp cs fill n (padding cs fill n) := by
  have missing : padding cs fill n = filling fill (n - cs.length).toNat := by
    rw [padding, if_neg (by simpa using filled)]
  rw [missing]
  constructor
  · rw [length_filling filled]
    omega
  · intro k hk
    rw [length_filling filled] at hk
    exact getElem?_filling filled hk

/-! ## The methods -/

/-- The method of that name has a text for its result, of which `P` holds. -/
def Gives (s : String) (name : String) (args : List Value) (P : List Char → Prop) : Prop :=
  ∃ w, call? (.text s) name args = some (.ok (.text (String.ofList w))) ∧ P w

variable (s : String)

theorem gives_substring (i j : Int) :
    Gives s "substring" [.int i, .int j] (Stands s.toList
      (min (moved s.length i) (moved s.length j)) (max (moved s.length i) (moved s.length j))) := by
  rw [← String.length_toList]
  exact ⟨_, rfl, stands_substring s.toList i j⟩

theorem call?_substring_comm (i j : Int) :
    call? (.text s) "substring" [.int i, .int j] =
      call? (.text s) "substring" [.int j, .int i] := by
  have cut (i j : Int) : call? (.text s) "substring" [.int i, .int j] =
      some (.ok (.text (String.ofList (substring s.toList i j)))) := rfl
  rw [cut, cut, substring_comm]

theorem gives_slice (i j : Int) :
    Gives s "slice" [.int i, .int j]
      (Sliced s.toList (counted s.length i) (counted s.length j)) := by
  rw [← String.length_toList]
  exact ⟨_, rfl, sliced_slice s.toList i j⟩

theorem gives_slice_rest (i : Int) :
    Gives s "slice" [.int i] (Sliced s.toList (counted s.length i) s.length) := by
  rw [← String.length_toList]
  have sliced := sliced_slice s.toList i s.toList.length
  rw [counted_size] at sliced
  exact ⟨_, rfl, sliced⟩

theorem gives_charAt (i : Int) : Gives s "charAt" [.int i] (IsAt s.toList i) :=
  ⟨_, rfl, isAt_charAt s.toList i⟩

/-- A padding that can be counted comes out. -/
theorem padded_ok (pad : List Char → List Char → Int → List Char) {fill : String} {n : Int}
    (countable : n - s.length < countLimit) :
    padded pad s.toList (.int n) (.text fill) =
      .ok (.text (String.ofList (pad s.toList fill.toList n))) := by
  have short : ¬ (fill.toList.isEmpty = false ∧ countLimit ≤ n - s.toList.length) := by
    rw [String.length_toList]
    omega
  exact if_neg short

theorem padded_error (pad : List Char → List Char → Int → List Char) {fill : String} {n : Int}
    (filled : fill ≠ "") (endless : countLimit ≤ n - s.length) :
    padded pad s.toList (.int n) (.text fill) = .error .outOfRange := by
  have long : fill.toList.isEmpty = false ∧ countLimit ≤ n - s.toList.length := by
    rw [String.length_toList]
    exact ⟨by simpa using filled, endless⟩
  exact if_pos long

variable {s} {fill : String} {n : Int}

theorem gives_padStart (filled : fill ≠ "") (countable : n - s.length < countLimit) :
    Gives s "padStart" [.int n, .text fill]
      (fun w => ∃ pad, FillsUp s.toList fill.toList n pad ∧ w = pad ++ s.toList) :=
  ⟨_, congrArg some (padded_ok s padStart countable), _,
    fillsUp_padding (by simpa using filled) s.toList n, rfl⟩

theorem gives_padEnd (filled : fill ≠ "") (countable : n - s.length < countLimit) :
    Gives s "padEnd" [.int n, .text fill]
      (fun w => ∃ pad, FillsUp s.toList fill.toList n pad ∧ w = s.toList ++ pad) :=
  ⟨_, congrArg some (padded_ok s padEnd countable), _,
    fillsUp_padding (by simpa using filled) s.toList n, rfl⟩

/-- **A text is cut and padded at all positions.**  `substring` moves its ends into the text and is
the same when they change places; `slice` counts negative ends from the end of the text, and
reversed ends leave nothing; `charAt` is empty outside the text.  Padding fills up to a length from
the left with the characters of the filling over and over, unless more of them are missing than can
be counted, and so many are in no memory. -/
theorem positions_counted (s : String) (i j n : Int) {fill : String} (filled : fill ≠ "") :
    Gives s "substring" [.int i, .int j] (Stands s.toList
      (min (moved s.length i) (moved s.length j)) (max (moved s.length i) (moved s.length j))) ∧
    call? (.text s) "substring" [.int i, .int j] = call? (.text s) "substring" [.int j, .int i] ∧
    Gives s "slice" [.int i, .int j]
      (Sliced s.toList (counted s.length i) (counted s.length j)) ∧
    Gives s "slice" [.int i] (Sliced s.toList (counted s.length i) s.length) ∧
    Gives s "charAt" [.int i] (IsAt s.toList i) ∧
    (n - s.length < countLimit →
      Gives s "padStart" [.int n, .text fill]
        (fun w => ∃ pad, FillsUp s.toList fill.toList n pad ∧ w = pad ++ s.toList) ∧
      Gives s "padEnd" [.int n, .text fill]
        (fun w => ∃ pad, FillsUp s.toList fill.toList n pad ∧ w = s.toList ++ pad)) ∧
    (countLimit ≤ n - s.length →
      call? (.text s) "padStart" [.int n, .text fill] = some (.error .outOfRange) ∧
      call? (.text s) "padEnd" [.int n, .text fill] = some (.error .outOfRange)) := by
  refine ⟨gives_substring s i j, call?_substring_comm s i j, gives_slice s i j,
    gives_slice_rest s i, gives_charAt s i, fun countable => ?_, fun endless => ?_⟩
  · exact ⟨gives_padStart filled countable, gives_padEnd filled countable⟩
  · exact ⟨congrArg some (padded_error s padStart filled endless),
      congrArg some (padded_error s padEnd filled endless)⟩

/-- Positions count characters of any width, from the end too. -/
theorem accented_counted :
    ("xy" : String) ≠ "" ∧ (9 : Int) - ("añ😀d" : String).length < countLimit ∧
      call? (.text "añ😀d") "slice" [.int (-3), .int 9] = some (.ok (.text "ñ😀d")) ∧
      Gives "añ😀d" "padStart" [.int 9, .text "xy"]
        (fun w => ∃ pad, FillsUp "añ😀d".toList "xy".toList 9 pad ∧ w = pad ++ "añ😀d".toList) := by
  have filled : ("xy" : String) ≠ "" := by decide
  have countable : (9 : Int) - ("añ😀d" : String).length < countLimit := by decide
  obtain ⟨-, -, ⟨w, hw, sliced⟩, -, -, padded, -⟩ := positions_counted "añ😀d" (-3) 9 9 filled
  have stands : Stands "añ😀d".toList 1 4 "ñ😀d".toList := ⟨['a'], [], rfl, rfl, rfl⟩
  have same : w = "ñ😀d".toList := Stands.unique sliced stands
  refine ⟨filled, countable, ?_, (padded countable).1⟩
  rw [hw, same]
  rfl

end Toolbar.Method
