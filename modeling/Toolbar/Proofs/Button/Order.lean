/-
# `Toolbar.Proofs.Button.Order` — the order of positions is the stable one

The sort takes a run and puts the other items into it by halving.  Where the comparison is that of
integer keys its result is the stable sort: it is in order, and the items with one key stand as they
stood before.  There is only one such list (`StableSort.unique`), and the merge sort of the library
is another way to make it.
-/
import Mathlib.Data.List.Sort
import Toolbar.Button.Order

namespace Toolbar.Button

/-! ## Stable sorts -/

section Stable

variable {α : Type} (key : α → Int)

/-- The items in order, where those with one key stand as they did. -/
structure StableSort (xs ys : List α) : Prop where
  sorted : ys.Pairwise (key · ≤ key ·)
  same : ∀ k, ys.filter (key · = k) = xs.filter (key · = k)

variable {key} {xs ys zs : List α}

theorem eq_nil_of_filters (h : ∀ k, ([] : List α).filter (key · = k) = ys.filter (key · = k)) :
    ys = [] := by
  refine List.eq_nil_iff_forall_not_mem.mpr fun y hy => ?_
  have hmem : y ∈ ys.filter (key · = key y) := List.mem_filter.mpr ⟨hy, by simp⟩
  rw [← h (key y)] at hmem
  cases hmem

/-- The first of the items in order has a key that no other item falls below. -/
theorem key_head_le {y z : α} (hsorted : (y :: ys).Pairwise (key · ≤ key ·))
    (h : ∀ k, (z :: zs).filter (key · = k) = (y :: ys).filter (key · = k)) : key y ≤ key z := by
  have hmem : z ∈ (z :: zs).filter (key · = key z) := List.mem_filter.mpr ⟨by simp, by simp⟩
  rw [h (key z)] at hmem
  rcases List.mem_cons.mp (List.mem_filter.mp hmem).1 with rfl | htail
  · exact Int.le_refl _
  · exact (List.pairwise_cons.mp hsorted).1 z htail

/-- Items in order are determined by what they are for each key. -/
theorem eq_of_filters (hys : ys.Pairwise (key · ≤ key ·)) (hzs : zs.Pairwise (key · ≤ key ·))
    (h : ∀ k, ys.filter (key · = k) = zs.filter (key · = k)) : ys = zs := by
  induction ys generalizing zs with
  | nil => exact (eq_nil_of_filters h).symm
  | cons y ys ih =>
      cases zs with
      | nil => exact eq_nil_of_filters fun k => (h k).symm
      | cons z zs =>
          have hkey : key y = key z :=
            Int.le_antisymm (key_head_le hys fun k => (h k).symm) (key_head_le hzs h)
          have hheads := h (key y)
          rw [List.filter_cons_of_pos (by simp), List.filter_cons_of_pos (by simp [hkey])] at hheads
          obtain ⟨rfl, htails⟩ := List.cons.inj hheads
          rw [ih (List.pairwise_cons.mp hys).2 (List.pairwise_cons.mp hzs).2 fun k => ?_]
          by_cases hk : key y = k
          · rw [← hk, htails]
          · have hk' := h k
            rwa [List.filter_cons_of_neg (by simpa using hk),
              List.filter_cons_of_neg (by simpa using hk)] at hk'

theorem StableSort.unique (h : StableSort key xs ys) (h' : StableSort key xs zs) : ys = zs :=
  eq_of_filters h.sorted h'.sorted fun k => (h.same k).trans (h'.same k).symm

theorem StableSort.mem (h : StableSort key xs ys) {x : α} : x ∈ ys ↔ x ∈ xs := by
  have hmem := congrArg (x ∈ ·) (h.same (key x))
  simpa using hmem

theorem stableSort_mergeSort (xs : List α) :
    StableSort key xs (xs.mergeSort fun a b => key a ≤ key b) := by
  have trans : ∀ a b c : α, decide (key a ≤ key b) = true → decide (key b ≤ key c) = true →
      decide (key a ≤ key c) = true := by
    intro a b c hab hbc
    simp only [decide_eq_true_eq] at hab hbc ⊢
    exact Int.le_trans hab hbc
  have total : ∀ a b : α, (decide (key a ≤ key b) || decide (key b ≤ key a)) = true := by
    intro a b
    simpa using Int.le_total (key a) (key b)
  refine ⟨?_, fun k => ?_⟩
  · simpa using List.pairwise_mergeSort trans total xs
  · have inOrder : (xs.filter (key · = k)).Pairwise fun a b => decide (key a ≤ key b) = true := by
      refine List.pairwise_filter.mpr (List.pairwise_of_forall fun a b => ?_)
      simp only [decide_eq_true_eq]
      exact fun ha hb => Int.le_of_eq (ha.trans hb.symm)
    have sublist := (List.sublist_mergeSort trans total inOrder List.filter_sublist).filter
      fun a => decide (key a = k)
    rw [List.filter_filter] at sublist
    simp only [Bool.and_self] at sublist
    exact (sublist.eq_of_length
      (((List.mergeSort_perm xs _).filter _).length_eq).symm).symm

end Stable

/-! ## Putting an item into its place -/

section Putting

variable {α : Type} (key : α → Int)

/-- Items with one put behind all whose key is not greater. -/
def put (x : α) (run : List α) : List α :=
  run.filter (key · ≤ key x) ++ x :: run.filter (key x < key ·)

variable {key} {x : α} {run : List α}

theorem mem_put {a : α} (h : a ∈ put key x run) : a = x ∨ a ∈ run := by
  rcases List.mem_append.mp h with ha | ha
  · exact .inr (List.mem_filter.mp ha).1
  · rcases List.mem_cons.mp ha with rfl | ha
    · exact .inl rfl
    · exact .inr (List.mem_filter.mp ha).1

theorem sorted_put (h : run.Pairwise (key · ≤ key ·)) :
    (put key x run).Pairwise (key · ≤ key ·) := by
  have below : ∀ a ∈ run.filter (key · ≤ key x), key a ≤ key x := fun a ha => by
    simpa using (List.mem_filter.mp ha).2
  have above : ∀ a ∈ run.filter (key x < key ·), key x ≤ key a := fun a ha =>
    Int.le_of_lt (by simpa using (List.mem_filter.mp ha).2)
  refine List.pairwise_append.mpr
    ⟨h.filter _, List.pairwise_cons.mpr ⟨above, h.filter _⟩, fun a ha b hb => ?_⟩
  rcases List.mem_cons.mp hb with rfl | hb
  · exact below a ha
  · exact Int.le_trans (below a ha) (above b hb)

/-- Of each key, an item that is put into a run stands behind all others. -/
theorem filter_put (x : α) (run : List α) (k : Int) :
    (put key x run).filter (key · = k) = (run ++ [x]).filter (key · = k) := by
  have cut : ∀ p : α → Bool, (∀ a, key a = k → p a = true) →
      (run.filter p).filter (key · = k) = run.filter (key · = k) := by
    intro p hp
    rw [List.filter_filter]
    refine List.filter_congr fun a _ => ?_
    by_cases ha : key a = k
    · simp [ha, hp a ha]
    · simp [ha]
  have none : ∀ p : α → Bool, (∀ a, key a = k → p a = false) →
      (run.filter p).filter (key · = k) = [] := by
    intro p hp
    refine List.filter_eq_nil_iff.mpr fun a ha hk => ?_
    have hpa := (List.mem_filter.mp ha).2
    rw [hp a (by simpa using hk)] at hpa
    cases hpa
  rw [put, List.filter_append, List.filter_append]
  by_cases hk : k ≤ key x
  · rw [cut _ fun a ha => by simpa [ha] using hk, List.filter_cons, List.filter_cons,
      none _ fun a ha => by simpa [ha] using hk, List.filter_nil]
  · rw [none _ fun a ha => by simpa [ha] using hk, List.filter_cons_of_neg (by simp; omega),
      List.filter_cons_of_neg (by simp; omega), cut _ fun a ha => by simp; omega]
    simp

/-- An item whose key is smaller than those of the second part is put into the first. -/
theorem put_append_left {right : List α} (h : ∀ a ∈ right, key x < key a) :
    put key x (run ++ right) = put key x run ++ right := by
  have below : right.filter (key · ≤ key x) = [] :=
    List.filter_eq_nil_iff.mpr fun a ha => by simpa using h a ha
  have above : right.filter (key x < key ·) = right :=
    List.filter_eq_self.mpr fun a ha => by simpa using h a ha
  simp [put, below, above]

/-- An item whose key is not smaller than those of the first part is put into the second. -/
theorem put_append_right {left : List α} (h : ∀ a ∈ left, key a ≤ key x) :
    put key x (left ++ run) = left ++ put key x run := by
  have below : left.filter (key · ≤ key x) = left :=
    List.filter_eq_self.mpr fun a ha => by simpa using h a ha
  have above : left.filter (key x < key ·) = [] :=
    List.filter_eq_nil_iff.mpr fun a ha => by simpa using h a ha
  simp [put, below, above]

end Putting

/-! ## The sort -/

section Sorting

variable {α : Type} {key : α → Int} {less : α → α → Except Fault Bool} {P : α → Prop}
  (hless : ∀ a b, P a → P b → less a b = .ok (decide (key a < key b)))

include hless

/-- Halving finds the place of an item in a run that is in order. -/
theorem insert_eq {x : α} (hx : P x) (run : List α) (hrun : ∀ a ∈ run, P a)
    (hsorted : run.Pairwise (key · ≤ key ·)) : insert less x run = .ok (put key x run) := by
  induction hn : run.length using Nat.strong_induction_on generalizing run with
  | _ n ih =>
  rw [insert]
  split
  next hcut =>
    have hlength := congrArg List.length hcut
    simp only [List.length_drop, List.length_nil] at hlength
    rw [List.eq_nil_of_length_eq_zero (l := run) (by omega)]
    rfl
  next y right hcut =>
    obtain ⟨left, hleft⟩ : ∃ left, run.take (run.length / 2) = left := ⟨_, rfl⟩
    have hsplit : run = left ++ y :: right := by rw [← hleft, ← hcut, List.take_append_drop]
    have hlengths := congrArg List.length hsplit
    simp only [List.length_append, List.length_cons] at hlengths
    rw [hleft]
    rw [hsplit] at hrun hsorted ⊢
    obtain ⟨hbefore, hright, hacross⟩ := List.pairwise_append.mp hsorted
    obtain ⟨hbehind, hrest⟩ := List.pairwise_cons.mp hright
    rw [hless x y hx (hrun y (by simp))]
    -- What lies across the middle from the half in which the search goes on stays where it is.
    by_cases hlt : key x < key y
    · have hread := ih left.length (by omega) left
        (fun a ha => hrun a (List.mem_append_left _ ha)) hbefore rfl
      have habove : ∀ a ∈ y :: right, key x < key a := by
        rintro a (_ | ⟨_, ha⟩)
        · exact hlt
        · exact Int.lt_of_lt_of_le hlt (hbehind a ha)
      rw [put_append_left habove]
      simp [hlt, hread, bind, Except.bind, pure, Except.pure]
    · have hread := ih right.length (by omega) right
        (fun a ha => hrun a (List.mem_append_right _ (List.mem_cons_of_mem y ha))) hrest rfl
      have hbelow : ∀ a ∈ left ++ [y], key a ≤ key x := by
        intro a ha
        rcases List.mem_append.mp ha with ha | ha
        · exact Int.le_trans (hacross a ha y List.mem_cons_self) (Int.not_lt.mp hlt)
        · rw [List.mem_singleton.mp ha]
          exact Int.not_lt.mp hlt
      have hcons : left ++ y :: right = (left ++ [y]) ++ right := by simp
      rw [hcons, put_append_right hbelow]
      simp [hlt, hread, bind, Except.bind, pure, Except.pure]

/-- The items that come next are put into a run that is in order. -/
theorem stable_insertAll (items : List α) {run : List α} (hrun : ∀ a ∈ run, P a)
    (hitems : ∀ a ∈ items, P a) (hsorted : run.Pairwise (key · ≤ key ·)) :
    ∃ ys, insertAll less run items = .ok ys ∧ StableSort key (run ++ items) ys := by
  induction items generalizing run with
  | nil => exact ⟨run, rfl, hsorted, fun k => by rw [List.append_nil]⟩
  | cons x items ih =>
      have hx : P x := hitems x List.mem_cons_self
      have hput : ∀ a ∈ put key x run, P a := fun a ha =>
        (mem_put ha).elim (fun heq => heq ▸ hx) (hrun a)
      obtain ⟨ys, hys, hstable⟩ :=
        ih hput (fun a ha => hitems a (List.mem_cons_of_mem x ha)) (sorted_put hsorted)
      refine ⟨ys, ?_, hstable.sorted, fun k => ?_⟩
      · rw [insertAll, insert_eq hless hx run hrun hsorted]
        exact hys
      · rw [hstable.same k, List.filter_append, filter_put, ← List.filter_append]
        simp

/-- A run goes on as long as each item compares alike with the one in front of it. -/
theorem runFrom_eq (down : Bool) (items : List α) {last : α} (hlast : P last)
    (hitems : ∀ a ∈ items, P a) : ∃ run rest, runFrom less down last items = .ok (run, rest) ∧
      items = run ++ rest ∧
      (last :: run).IsChain fun a b => decide (key b < key a) = down := by
  induction items generalizing last with
  | nil => exact ⟨[], [], rfl, rfl, .singleton last⟩
  | cons x items ih =>
      have hx : P x := hitems x List.mem_cons_self
      obtain ⟨run, rest, hread, rfl, hchain⟩ :=
        ih hx fun a ha => hitems a (List.mem_cons_of_mem x ha)
      by_cases hgo : decide (key x < key last) = down
      · refine ⟨x :: run, rest, ?_, rfl, .cons_cons hgo hchain⟩
        rw [runFrom, hless x last hx hlast]
        simp [hgo, hread, bind, Except.bind, pure, Except.pure]
      · refine ⟨[], x :: (run ++ rest), ?_, rfl, .singleton last⟩
        rw [runFrom, hless x last hx hlast]
        simp [hgo, bind, Except.bind, pure, Except.pure]

omit hless in
/-- No two items of a falling run have one key, so it may be turned round. -/
theorem filter_reverse_of_falling {run : List α} (hrun : run.Pairwise fun a b => key b < key a)
    (k : Int) : run.reverse.filter (key · = k) = run.filter (key · = k) := by
  have hfilter := hrun.filter fun a => decide (key a = k)
  have hkeys : ∀ a ∈ run.filter (key · = k), key a = k := by
    intro a ha
    simpa using (List.mem_filter.mp ha).2
  rw [List.filter_reverse]
  generalize run.filter (key · = k) = same at hfilter hkeys
  rcases same with _ | ⟨a, _ | ⟨b, l⟩⟩
  · rfl
  · rfl
  · have hlt := (List.pairwise_cons.mp hfilter).1 b List.mem_cons_self
    rw [hkeys a List.mem_cons_self, hkeys b (by simp)] at hlt
    exact absurd hlt (Int.lt_irrefl k)

omit hless in
/-- A run, turned round when it falls, is in order. -/
theorem stable_run {run : List α} (down : Bool)
    (hrun : run.IsChain fun a b => decide (key b < key a) = down) :
    StableSort key run (if down then run.reverse else run) := by
  cases down with
  | true =>
      have hfalls : run.Pairwise fun a b => key b < key a := by
        refine List.isChain_iff_pairwise.mp (hrun.imp ?_)
        simp
      refine ⟨?_, filter_reverse_of_falling hfalls⟩
      exact List.pairwise_reverse.mpr (hfalls.imp Int.le_of_lt)
  | false =>
      refine ⟨?_, fun k => rfl⟩
      refine List.isChain_iff_pairwise.mp (hrun.imp ?_)
      simp

/-- The sort is the stable one. -/
theorem sort_eq_mergeSort (items : List α) (hitems : ∀ a ∈ items, P a) :
    sort less items = .ok (items.mergeSort fun a b => key a ≤ key b) := by
  obtain ⟨ys, hys, hstable⟩ : ∃ ys, sort less items = .ok ys ∧ StableSort key items ys := by
    match items, hitems with
    | [], _ => exact ⟨[], rfl, .nil, fun _ => rfl⟩
    | [x], _ => exact ⟨[x], rfl, List.pairwise_singleton _ x, fun _ => rfl⟩
    | x :: y :: items, hitems =>
        have hx : P x := hitems x (by simp)
        have hy : P y := hitems y (by simp)
        obtain ⟨run, rest, hread, rfl, hchain⟩ := runFrom_eq hless (decide (key y < key x)) items hy
          fun a ha => hitems a (by simp [ha])
        have hrun := stable_run _ (List.IsChain.cons_cons rfl hchain)
        obtain ⟨ys, hys, hstable⟩ := stable_insertAll hless rest
          (fun a ha => hitems a (List.mem_append_left rest (hrun.mem.mp ha)))
          (fun a ha => hitems a (by simp [ha])) hrun.sorted
        refine ⟨ys, ?_, hstable.sorted, fun k => ?_⟩
        · rw [sort, hless y x hy hx]
          simp only [bind, Except.bind, hread]
          exact hys
        · rw [hstable.same k, List.filter_append, hrun.same k, ← List.filter_append]
          rfl
  rw [hys, hstable.unique (stableSort_mergeSort items)]

end Sorting

/-! ## Positions -/

/-- The position of a configuration as an integer; a truth value counts as zero or one. -/
def Config.place (c : Config) : Int :=
  match c.position.asNumber? with
  | some (.int i) => i
  | _ => 0

/-- A configuration whose position is an integer. -/
def Config.Placed (c : Config) : Prop :=
  c.position.asNumber? = some (.int c.place)

instance (c : Config) : Decidable c.Placed :=
  inferInstanceAs (Decidable (c.position.asNumber? = some (.int c.place)))

theorem before_placed {a b : Config} (ha : a.Placed) (hb : b.Placed) :
    before a.position b.position = .ok (decide (a.place < b.place)) := by
  have hcompare (i j : Int) : (Number.compare? (.int i) (.int j) == some .lt) = decide (i < j) := by
    simp only [Number.compare?, beq_eq_decide, Option.some.injEq, Int.compare_eq_lt]
  unfold Config.Placed at ha hb
  cases hposition : a.position with
  | num m =>
      rw [hposition] at ha
      cases ha
      simp only [before, hb, hcompare]
  | bool t =>
      rw [hposition] at ha
      have hplace : (if t then 1 else 0) = a.place := by
        simpa [Value.asNumber?] using ha
      simp only [before, hb, hcompare, hplace]
  | _ =>
      rw [hposition] at ha
      cases ha

/-- Configurations whose positions are integers are put into the stable order. -/
theorem sortByPosition_eq {configs : List Config} (h : ∀ c ∈ configs, c.Placed) :
    sortByPosition configs = .ok (configs.mergeSort fun a b => a.place ≤ b.place) :=
  sort_eq_mergeSort (fun _ _ => before_placed) configs h

end Toolbar.Button
