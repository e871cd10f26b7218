/-
# `Toolbar.Proofs.Method.Results` — what methods give can be shown

A value without a display is, or holds, an integer with too many digits.  No method makes such an
integer: what methods give are texts, truth values, lists of texts, the value itself, and integers
that count characters or items or tell a part of a date.  So when a value can be shown, and the
count of the characters of its display can be written as well, then the results of its methods can
be shown, whatever the arguments are.

    Displayable    the value has a display
    Writable       besides, the count of the characters of the display has a text
    Shown          the result of a method has a display, or the method fails
-/
import Mathlib.Data.Nat.Digits.Defs
import Toolbar.Method.Call
import Toolbar.Proofs.Calendar.Days
import Toolbar.Proofs.Number.Rounding
import Toolbar.Proofs.Text.Replace

namespace Toolbar

open Text

/-! ## Integers that have a text -/

namespace Number

theorem intText?_isSome_iff {i : Int} :
    (intText? i).isSome = true ↔ i.natAbs < 10 ^ digitLimit := by
  rw [← Nat.length_toDigits_le_iff (b := 10) (by decide) (by decide : 0 < digitLimit)]
  unfold intText?
  dsimp only
  split
  next h => simpa [decimalDigits] using h
  next h => simpa [decimalDigits] using h

theorem intText?_isSome_of_le {i j : Int} (h : i.natAbs ≤ j.natAbs)
    (hj : (intText? j).isSome = true) : (intText? i).isSome = true :=
  intText?_isSome_iff.mpr (lt_of_le_of_lt h (intText?_isSome_iff.mp hj))

/-- An integer with at most 1024 binary digits has a text. -/
theorem intText?_isSome_of_lt {i : Int} (h : i.natAbs < 2 ^ 1024) :
    (intText? i).isSome = true := by
  refine intText?_isSome_iff.mpr (lt_of_lt_of_le h ?_)
  calc 2 ^ 1024
      ≤ 10 ^ 1024 := pow_le_pow_left₀ (by decide) (by decide) 1024
    _ ≤ 10 ^ digitLimit := pow_le_pow_right₀ (by decide) (by decide)

theorem intText?_isSome_of_small {n : Nat} (h : n < 2 ^ 20) :
    (intText? n).isSome = true :=
  intText?_isSome_of_lt (lt_of_lt_of_le h (pow_le_pow_right₀ one_le_two (by decide)))

end Number

/-! ## Values that have a display -/

namespace Value

/-- A value has a display. -/
def Displayable (v : Value) : Prop :=
  ∃ s, v.display = .ok s

/-- A value has a display, and the count of its characters has a text: it is not a number of more
than `digitLimit` digits, and no display that fits into a memory is as long as that. -/
def Writable (v : Value) : Prop :=
  ∃ s, v.display = .ok s ∧ (Number.intText? s.length).isSome = true

theorem Writable.displayable {v : Value} (h : v.Writable) : v.Displayable := by
  obtain ⟨s, hs, -⟩ := h
  exact ⟨s, hs⟩

theorem display_eq_ok {v : Value} {s : String} : v.display = .ok s ↔ v.display? = some s := by
  unfold display
  cases v.display? <;> simp

theorem writable_iff {v : Value} :
    v.Writable ↔ (v.display?.any fun s => (Number.intText? s.length).isSome) = true := by
  unfold Writable
  simp only [display_eq_ok, Option.any_eq_true]

instance (v : Value) : Decidable v.Writable :=
  decidable_of_iff _ writable_iff.symm

theorem displayable_text (s : String) : (Value.text s).Displayable :=
  ⟨s, rfl⟩

theorem displayable_bool (b : Bool) : (Value.bool b).Displayable :=
  ⟨_, rfl⟩

theorem displayable_stamp (t : Stamp) : (Value.stamp t).Displayable :=
  ⟨t.display, rfl⟩

theorem displayable_int {i : Int} (h : (Number.intText? i).isSome = true) :
    (Value.int i).Displayable := by
  obtain ⟨s, hs⟩ := Option.isSome_iff_exists.mp h
  exact ⟨s, display_eq_ok.mpr hs⟩

theorem displayable_texts (pieces : List (List Char)) :
    (Value.list (pieces.map fun p => .text (String.ofList p))).Displayable := by
  have items : ∃ texts, recordItems? (pieces.map fun p => .text (String.ofList p)) = some texts := by
    induction pieces with
    | nil => exact ⟨[], rfl⟩
    | cons p pieces ih =>
        obtain ⟨texts, htexts⟩ := ih
        refine ⟨recordQuoted (String.ofList p) :: texts, ?_⟩
        simp only [List.map_cons, recordItems?, recordText?, htexts]
        rfl
  obtain ⟨texts, htexts⟩ := items
  refine ⟨"[" ++ joined "," texts ++ "]", display_eq_ok.mpr ?_⟩
  simp only [display?, recordText?, htexts, Option.map_some]

end Value

/-- Joined by one character, pieces are at most one more than the characters. -/
theorem Text.length_le_joinWith (c : Char) (ps : List (List Char)) :
    ps.length ≤ (joinWith [c] ps).length + 1 := by
  induction ps with
  | nil => exact Nat.zero_le _
  | cons p ps ih =>
      by_cases h : ps = []
      · subst h
        exact Nat.le_add_left 1 _
      · rw [joinWith_cons h, List.length_append, List.length_append, List.length_cons,
          List.length_singleton]
        omega

namespace Value

theorem length_recordItems? {items : List Value} {texts : List String}
    (h : recordItems? items = some texts) : texts.length = items.length := by
  induction items generalizing texts with
  | nil =>
      cases h
      rfl
  | cons v items ih =>
      simp only [recordItems?, Option.bind_eq_bind, Option.bind_eq_some_iff] at h
      obtain ⟨t, -, ts, hts, heq⟩ := h
      cases heq
      rw [List.length_cons, List.length_cons, ih hts]

/-- A list has no more items than its display has characters. -/
theorem length_le_display {items : List Value} {s : String}
    (h : (Value.list items).display = .ok s) : items.length ≤ s.length := by
  obtain ⟨texts, htexts, rfl⟩ := Option.map_eq_some_iff.mp (display_eq_ok.mp h)
  have hjoin := Text.length_le_joinWith ',' (texts.map String.toList)
  rw [List.length_map, length_recordItems? htexts] at hjoin
  have hjoined : (joined "," texts).length = (joinWith [','] (texts.map String.toList)).length :=
    String.length_ofList
  have hlength : ("[" ++ joined "," texts ++ "]").length = 1 + (joined "," texts).length + 1 := by
    rw [String.length_append, String.length_append]
    rfl
  omega

end Value

/-! ## The shapes of methods -/

namespace Method

/-- The result of a method has a display, or the method fails. -/
def Shown (result : Result) : Prop :=
  ∀ v, result = .ok v → v.Displayable

namespace Shown

theorem error (f : Fault) : Shown (.error f) :=
  fun _ h => nomatch h

theorem ok {v : Value} (h : v.Displayable) : Shown (.ok v) := by
  rintro _ ⟨⟩
  exact h

theorem text (s : String) : Shown (.ok (.text s)) :=
  ok (Value.displayable_text s)

theorem bool (b : Bool) : Shown (.ok (.bool b)) :=
  ok (Value.displayable_bool b)

theorem small {n : Nat} (h : n < 2 ^ 20) : Shown (.ok (.int n)) :=
  ok (Value.displayable_int (Number.intText?_isSome_of_small h))

theorem bind {α : Type} (x : Except Fault α) {f : α → Result} (h : ∀ a, Shown (f a)) :
    Shown (x >>= f) := by
  cases x with
  | error e => exact error e
  | ok a => exact h a

theorem map_text (x : Except Fault String) : Shown (x.map .text) := by
  cases x with
  | error e => exact error e
  | ok s => exact text s

theorem noArgs {result : Result} (h : Shown result) (args : List Value) :
    Shown (noArgs result args) := by
  unfold Method.noArgs
  split
  · exact h
  · exact error _

theorem oneArg {run : Value → Result} (h : ∀ a, Shown (run a)) (args : List Value) :
    Shown (oneArg run args) := by
  unfold Method.oneArg
  split
  · exact h _
  · exact error _

theorem maybeArg {missing : Value} {run : Value → Result} (h : ∀ a, Shown (run a))
    (args : List Value) : Shown (maybeArg missing run args) := by
  unfold Method.maybeArg
  split
  · exact h _
  · exact h _
  · exact error _

theorem oneMaybeArg {missing : Value} {run : Value → Value → Result} (h : ∀ a b, Shown (run a b))
    (args : List Value) : Shown (oneMaybeArg missing run args) := by
  unfold Method.oneMaybeArg
  split
  · exact h _ _
  · exact h _ _
  · exact error _

theorem maybeTwoArgs {first second : Value} {run : Value → Value → Result}
    (h : ∀ a b, Shown (run a b)) (args : List Value) :
    Shown (maybeTwoArgs first second run args) := by
  unfold Method.maybeTwoArgs
  split
  · exact h _ _
  · exact h _ _
  · exact h _ _
  · exact error _

end Shown

/-! ## The tables -/

/-- What the methods of a table give can be shown. -/
def AllShown (table : List (String × (List Value → Result))) : Prop :=
  ∀ entry ∈ table, ∀ args, Shown (entry.2 args)

theorem allShown_nil : AllShown [] :=
  fun _ h => nomatch h

theorem allShown_cons {name : String} {run : List Value → Result}
    {table : List (String × (List Value → Result))} (h : ∀ args, Shown (run args))
    (rest : AllShown table) : AllShown ((name, run) :: table) :=
  List.forall_mem_cons.mpr ⟨h, rest⟩

theorem allShown_ofBool (b : Bool) : AllShown (ofBool b) := by
  refine allShown_cons (.noArgs (.map_text _)) ?_
  exact allShown_cons (.noArgs (.bool b)) allShown_nil

/-! ### Numbers -/

theorem shown_toFixed (n : Number) (digits : Value) : Shown (toFixed n digits) :=
  .bind _ fun _ => .text _

theorem shown_toPrecision (n : Number) (digits : Value) : Shown (toPrecision n digits) := by
  unfold toPrecision
  split
  · exact .map_text _
  · exact .bind _ fun _ => .text _

theorem shown_toRadix (n : Number) (radix : Value) : Shown (toRadix n radix) := by
  refine .bind _ fun r => ?_
  split
  · exact .bind _ fun _ => .text _
  · refine .bind _ fun whole => ?_
    cases whole with
    | none => exact .bind _ fun _ => .text _
    | some i =>
        dsimp only
        split
        · exact .text _
        · exact .error _

theorem shown_toLocale (n : Number) : Shown (toLocale n) := by
  unfold toLocale
  split
  · exact .map_text _
  · split
    · exact .bind _ fun _ => .bind _ fun _ => .text _
    · exact .text _

/-- A number is its own value, so it has to have a display itself. -/
theorem allShown_ofNumber {n : Number} (h : (Value.num n).Displayable) : AllShown (ofNumber n) := by
  refine allShown_cons (.maybeArg (shown_toFixed n)) ?_
  refine allShown_cons (.maybeArg (shown_toPrecision n)) ?_
  refine allShown_cons (.maybeArg (shown_toRadix n)) ?_
  refine allShown_cons (.maybeTwoArgs fun _ _ => shown_toLocale n) ?_
  exact allShown_cons (.noArgs (.ok h)) allShown_nil

/-! ### Texts -/

theorem find?_le {part cs : List Char} {n : Nat} (h : find? part cs = some n) :
    n ≤ cs.length := by
  induction cs generalizing n with
  | nil =>
      rw [find?, Option.ite_none_right_eq_some] at h
      obtain ⟨-, h⟩ := h
      cases h
      exact Nat.le_refl 0
  | cons c cs ih =>
      rw [find?] at h
      split at h
      · cases h
        exact Nat.zero_le _
      · obtain ⟨m, hm, rfl⟩ := Option.map_eq_some_iff.mp h
        exact Nat.succ_le_succ (ih hm)

/-- A position in a text can be written when the count of its characters can. -/
theorem intText?_indexOf {part cs : List Char}
    (h : (Number.intText? cs.length).isSome = true) :
    (Number.intText? (indexOf part cs)).isSome = true := by
  unfold indexOf
  split
  next n hn => exact Number.intText?_isSome_of_le (i := n) (j := cs.length) (find?_le hn) h
  next => rfl

theorem shown_search {ask : List Char → Value} (h : ∀ part, (ask part).Displayable)
    (arg : Value) : Shown (search ask arg) :=
  .bind _ fun part => .ok (h part.toList)

theorem shown_replacing (run : List Char → List Char → List Char) (old new : Value) :
    Shown (replacing run old new) :=
  .bind _ fun _ => .bind _ fun _ => .text _

theorem shown_split (cs : List Char) (sep : Value) : Shown (split cs sep) := by
  unfold Method.split
  split
  · exact .ok (Value.displayable_texts [cs])
  · exact .ok (Value.displayable_texts _)
  · exact .error _

theorem shown_padded (pad : List Char → List Char → Int → List Char) (cs : List Char)
    (length fill : Value) : Shown (padded pad cs length fill) := by
  refine .bind _ fun fill => .bind _ fun length => ?_
  split
  · exact .error _
  · exact .text _

theorem allShown_ofText {s : String} (h : (Number.intText? s.length).isSome = true) :
    AllShown (ofText s) := by
  have hlength : (Number.intText? s.toList.length).isSome = true := h
  have between : ∀ part : List Char → Int → Int → List Char, ∀ a b,
      Shown (do
        let i ← intArg a
        let j ← if b.isNull then pure (s.toList.length : Int) else intArg b
        return .text (String.ofList (part s.toList i j))) := by
    intro part a b
    refine .bind _ fun i => ?_
    dsimp only
    split
    · exact .text _
    · exact .bind _ fun _ => .text _
  -- One method after the other; the position and the length are the only integers among them.
  refine allShown_cons (.noArgs (.text _)) ?_
  refine allShown_cons (.noArgs (.text _)) ?_
  refine allShown_cons (.noArgs (.text _)) ?_
  refine allShown_cons (.noArgs (.text _)) ?_
  refine allShown_cons (.noArgs (.text _)) ?_
  refine allShown_cons (.maybeTwoArgs (between substring)) ?_
  refine allShown_cons (.maybeTwoArgs (between slice)) ?_
  refine allShown_cons (.maybeArg fun _ => .bind _ fun _ => .text _) ?_
  refine allShown_cons (.oneArg (shown_search fun _ =>
    Value.displayable_int (intText?_indexOf hlength))) ?_
  refine allShown_cons (.oneArg (shown_search fun _ => Value.displayable_bool _)) ?_
  refine allShown_cons (.oneArg (shown_search fun _ => Value.displayable_bool _)) ?_
  refine allShown_cons (.oneArg (shown_search fun _ => Value.displayable_bool _)) ?_
  refine allShown_cons (.oneMaybeArg (shown_replacing _)) ?_
  refine allShown_cons (.oneMaybeArg (shown_replacing _)) ?_
  refine allShown_cons (.maybeArg (shown_split _)) ?_
  refine allShown_cons (.oneMaybeArg (shown_padded _ _)) ?_
  refine allShown_cons (.oneMaybeArg (shown_padded _ _)) ?_
  refine allShown_cons (.oneArg fun _ => .bind _ fun _ => .bind _ fun _ => .text _) ?_
  refine allShown_cons (.noArgs (.ok (Value.displayable_int hlength))) ?_
  refine allShown_cons (.noArgs (.text _)) ?_
  exact allShown_cons (.noArgs (.text _)) allShown_nil

/-! ### Stamps -/

/-- Milliseconds are the integer part of a product of doubles. -/
theorem epochMillis_lt {t : Stamp} {i : Int} (h : epochMillis t = .ok i) :
    i.natAbs < 2 ^ 1024 := by
  unfold epochMillis at h
  cases hseconds : Number.div (.int t.sinceEpoch) (.int 1000000) with
  | error f =>
      rw [hseconds] at h
      cases h
  | ok seconds =>
      obtain ⟨x, rfl⟩ := Number.div_int hseconds
      rw [hseconds] at h
      exact Number.truncate_mul_lt (n := .int 1000) h

theorem shown_epochMillis (t : Stamp) : Shown ((epochMillis t).map .int) := by
  cases hmillis : epochMillis t with
  | error f => exact .error f
  | ok i => exact .ok (Value.displayable_int (Number.intText?_isSome_of_lt (epochMillis_lt hmillis)))

theorem allShown_ofStamp (t : Stamp) : AllShown (ofStamp t) := by
  obtain ⟨-, hyear, -, hmonth, -, hday⟩ := t.date.isDay
  obtain ⟨hhour, hminute, hsecond, hmicro, -⟩ := t.isTime
  have hday := hday.trans (Calendar.daysInMonth_le _ _)
  unfold Calendar.lastYear at hyear
  -- The parts of a date and of a time come first; they are small.
  refine allShown_cons (.noArgs (.small (by omega))) ?_
  refine allShown_cons (.noArgs (.small (n := t.date.month - 1) (by omega))) ?_
  refine allShown_cons (.noArgs (.small (by omega))) ?_
  refine allShown_cons (.noArgs (.small (by omega))) ?_
  refine allShown_cons (.noArgs (.small (by omega))) ?_
  refine allShown_cons (.noArgs (.small (by omega))) ?_
  refine allShown_cons (.noArgs (.small (by omega))) ?_
  refine allShown_cons (.noArgs (.small (by omega))) ?_
  refine allShown_cons (.noArgs (shown_epochMillis t)) ?_
  refine allShown_cons (.noArgs (.map_text _)) ?_
  refine allShown_cons (.noArgs (.text _)) ?_
  refine allShown_cons (.maybeTwoArgs fun _ _ => .text _) ?_
  refine allShown_cons (.maybeTwoArgs fun _ _ => .text _) ?_
  refine allShown_cons (.maybeTwoArgs fun _ _ => .text _) ?_
  refine allShown_cons (.noArgs (.text _)) ?_
  exact allShown_cons (.noArgs (shown_epochMillis t)) allShown_nil

/-! ### Lists, and all values -/

theorem allShown_ofList {items : List Value}
    (h : (Number.intText? items.length).isSome = true) : AllShown (ofList items) := by
  refine allShown_cons (.noArgs (.ok (Value.displayable_int h))) ?_
  refine allShown_cons (.maybeArg fun _ => .bind _ fun _ => .bind _ fun _ => .text _) ?_
  exact allShown_cons (.oneArg fun _ => .bool _) allShown_nil

theorem allShown_table {v : Value} (h : v.Writable) : AllShown (table v) := by
  obtain ⟨s, hs, hlength⟩ := h
  cases v with
  | bool b => exact allShown_ofBool b
  | num n => exact allShown_ofNumber ⟨s, hs⟩
  | text s' =>
      cases hs
      exact allShown_ofText hlength
  | date d => exact allShown_ofStamp _
  | stamp t => exact allShown_ofStamp t
  | list items =>
      exact allShown_ofList (Number.intText?_isSome_of_le (i := items.length) (j := s.length)
        (Value.length_le_display hs) hlength)
  | null | map _ | routine _ | object _ => exact allShown_nil

theorem mem_of_lookup {name : String} {table : List (String × (List Value → Result))}
    {run : List Value → Result} (h : lookup name table = some run) : (name, run) ∈ table := by
  induction table with
  | nil => cases h
  | cons entry table ih =>
      obtain ⟨n, run'⟩ := entry
      rw [lookup] at h
      split at h
      next hn =>
        cases h
        rw [beq_iff_eq.mp hn]
        exact List.mem_cons_self
      next => exact List.mem_cons_of_mem _ (ih h)

/-- What a method gives can be shown, when the table of the value is such. -/
theorem shown_call? {v : Value} (h : AllShown (table v)) {name : String} {args : List Value}
    {result : Result} (hcall : call? v name args = some result) : Shown result := by
  obtain ⟨run, hrun, rfl⟩ := Option.map_eq_some_iff.mp hcall
  exact h _ (mem_of_lookup hrun) args

end Method

end Toolbar
