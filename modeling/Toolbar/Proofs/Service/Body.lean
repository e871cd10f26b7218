/-
# `Toolbar.Proofs.Service.Body` — bytes and the texts that they denote

A text in UTF-8 is read as it is: its bytes hold a zero only for the character zero, and begin like a
mark only for the character that is the mark (`text?_utf8`).  And whatever the encoding turns out to
be, bytes that begin like a page of markup denote no value (`read_markup`): they bear no mark, in
each encoding that the zeros among them may show the opening angle bracket stays one, and no value
begins with it.
-/
import Mathlib.Data.Char
import Toolbar.Service.Body

namespace Toolbar.Service.Body

open Value.Reader (isHighUnit isLowUnit unitChar)

variable {b : UInt8} {bs : List UInt8} {missing value least : Nat} {found : List Nat}

/-! ## UTF-8 -/

theorem utf8Codes_ascii (h : b.toNat < 0x80) :
    utf8Codes 0 value least (b :: bs) = (utf8Codes 0 0 0 bs).map (b.toNat :: ·) := by
  rw [utf8Codes, if_pos rfl, lead?, if_pos h]

theorem utf8Codes_lead {v k l : Nat} (h : lead? b.toNat = some (v, k + 1, l)) :
    utf8Codes 0 value least (b :: bs) = utf8Codes (k + 1) v l bs := by
  rw [utf8Codes, if_pos rfl, h]

theorem utf8Codes_more (h : b.toNat / 0x40 = 2) :
    utf8Codes (missing + 2) value least (b :: bs) =
      utf8Codes (missing + 1) (value * 0x40 + b.toNat % 0x40) least bs := by
  rw [utf8Codes, if_neg (Nat.succ_ne_zero _), if_pos h]
  dsimp only
  rw [if_pos (by omega)]
  rfl

theorem utf8Codes_last (h : b.toNat / 0x40 = 2) {v : Nat} (hv : value * 0x40 + b.toNat % 0x40 = v)
    (low : least ≤ v) (high : v < codeLimit) :
    utf8Codes 1 value least (b :: bs) = (utf8Codes 0 0 0 bs).map (v :: ·) := by
  rw [utf8Codes, if_neg Nat.one_ne_zero, if_pos h]
  dsimp only
  rw [if_neg (Nat.lt_irrefl 1), hv, if_pos ⟨low, high⟩]

theorem toNat_byte {n : Nat} (h : n < 256) : (UInt8.ofNat n).toNat = n :=
  UInt8.toNat_ofNat_of_lt' h

theorem toNat_lt_codeLimit (c : Char) : c.toNat < codeLimit := by
  rcases c.valid with low | ⟨-, high⟩
  · exact Nat.lt_trans low (by decide)
  · exact high

theorem lead?_two : ∀ x < 32, lead? (x + 192) = some (x, 1, 0x80) := by
  decide

theorem lead?_three : ∀ x < 16, lead? (x + 224) = some (x, 2, 0x800) := by
  decide

theorem lead?_four : ∀ x < 8, lead? (x + 240) = some (x, 3, 0x10000) := by
  decide

/-- A byte behind the first one holds six binary digits. -/
theorem tail_byte (n : Nat) : (UInt8.ofNat (n % 64 + 128)).toNat / 0x40 = 2 ∧
    (UInt8.ofNat (n % 64 + 128)).toNat % 0x40 = n % 64 := by
  rw [toNat_byte (by omega)]
  omega

/-- The bytes of a character are read as its code point. -/
theorem utf8Codes_char (c : Char) (bs : List UInt8) :
    utf8Codes 0 0 0 (String.utf8EncodeChar c ++ bs) =
      (utf8Codes 0 0 0 bs).map (c.toNat :: ·) := by
  have limit := toNat_lt_codeLimit c
  have code : c.val.toNat = c.toNat := rfl
  unfold codeLimit at limit
  unfold String.utf8EncodeChar
  dsimp only
  rw [code]
  generalize c.toNat = n at *
  have last := tail_byte n
  have middle := tail_byte (n / 64)
  have second := tail_byte (n / 4096)
  split
  next one =>
    have byte := toNat_byte (n := n) (by omega)
    rw [List.singleton_append, utf8Codes_ascii (by omega), byte]
  next =>
    split
    next two =>
      have lead := lead?_two (n / 64 % 32) (by omega)
      rw [← toNat_byte (n := n / 64 % 32 + 192) (by omega)] at lead
      simp only [List.cons_append, List.nil_append]
      rw [utf8Codes_lead lead, utf8Codes_last last.1 (v := n) (by omega) (by omega)
        (by unfold codeLimit; omega)]
    next =>
      split
      next three =>
        have lead := lead?_three (n / 4096 % 16) (by omega)
        rw [← toNat_byte (n := n / 4096 % 16 + 224) (by omega)] at lead
        simp only [List.cons_append, List.nil_append]
        rw [utf8Codes_lead lead, utf8Codes_more middle.1, utf8Codes_last last.1 (v := n) (by omega)
          (by omega) (by unfold codeLimit; omega)]
      next four =>
        have lead := lead?_four (n / 262144 % 8) (by omega)
        rw [← toNat_byte (n := n / 262144 % 8 + 240) (by omega)] at lead
        simp only [List.cons_append, List.nil_append]
        rw [utf8Codes_lead lead, utf8Codes_more second.1, utf8Codes_more middle.1,
          utf8Codes_last last.1 (v := n) (by omega) (by omega) (by unfold codeLimit; omega)]

/-- The bytes of a text are read as its code points. -/
theorem utf8Codes_utf8 (cs : List Char) :
    utf8Codes 0 0 0 (cs.flatMap String.utf8EncodeChar) = some (cs.map Char.toNat) := by
  induction cs with
  | nil => rfl
  | cons c cs ih =>
      rw [List.flatMap_cons, utf8Codes_char, ih]
      rfl

/-- A byte zero stands for the character zero only. -/
theorem zero_mem_of_utf8Codes (zero : 0 ∈ bs) (h : utf8Codes missing value least bs = some found) :
    0 ∈ found := by
  induction bs generalizing missing value least found with
  | nil => cases zero
  | cons b bs ih =>
      unfold utf8Codes at h
      split at h
      next =>
        split at h
        next => cases h
        next v l hlead =>
          obtain ⟨rest, hrest, rfl⟩ := Option.map_eq_some_iff.mp h
          rcases List.mem_cons.mp zero with rfl | later
          · cases hlead
            exact List.mem_cons_self
          · exact List.mem_cons_of_mem v (ih later hrest)
        next v k l hlead =>
          rcases List.mem_cons.mp zero with rfl | later
          · cases hlead
          · exact ih later h
      next =>
        split at h
        next tail =>
          have later : 0 ∈ bs := by
            rcases List.mem_cons.mp zero with rfl | later
            · cases tail
            · exact later
          dsimp only at h
          split at h
          next => exact ih later h
          next =>
            split at h
            next =>
              obtain ⟨rest, hrest, rfl⟩ := Option.map_eq_some_iff.mp h
              exact List.mem_cons_of_mem _ (ih later hrest)
            next => cases h
        next => cases h

/-! ## Marks -/

theorem unmarked_of_not_mem (noZero : 0 ∉ bs) : unmarked bs = .utf8 := by
  rcases bs with _ | ⟨a, _ | ⟨b, _ | ⟨c, _ | ⟨d, bs⟩⟩⟩⟩
  · rfl
  · rfl
  · simp only [List.mem_cons, not_or] at noZero
    rw [unmarked, if_neg (Ne.symm noZero.1), if_neg (Ne.symm noZero.2.1)]
  · rfl
  · simp only [List.mem_cons, not_or] at noZero
    rw [unmarked, if_neg (Ne.symm noZero.1), if_neg (Ne.symm noZero.2.1)]

variable {s : String}

theorem zero_not_mem_utf8 (noZero : '\x00' ∉ s.toList) : 0 ∉ utf8 s := by
  intro zero
  obtain ⟨c, hc, code⟩ := List.mem_map.mp (zero_mem_of_utf8Codes zero (utf8Codes_utf8 s.toList))
  have character : c = '\x00' := by
    rw [← Char.ofNat_toNat c, code]
  exact noZero (character ▸ hc)

/-- In UTF-8 the mark is a character. -/
theorem utf8Codes_mark (bs : List UInt8) :
    utf8Codes 0 0 0 ([0xEF, 0xBB, 0xBF] ++ bs) = (utf8Codes 0 0 0 bs).map (0xFEFF :: ·) := by
  have lead : lead? (0xEF : UInt8).toNat = some (0xF, 1 + 1, 0x800) := by decide
  simp only [List.cons_append, List.nil_append]
  rw [utf8Codes_lead lead, utf8Codes_more (by decide),
    utf8Codes_last (v := 0xFEFF) (by decide) (by decide) (by decide) (by decide)]

/-- The bytes of a text without the character zero, and without the mark in front, show no other
encoding. -/
theorem detect_utf8 (noZero : '\x00' ∉ s.toList)
    (noMark : s.toList.head? ≠ some (Char.ofNat 0xFEFF)) :
    detect (utf8 s) = (.utf8, utf8 s) := by
  have zero := zero_not_mem_utf8 noZero
  have points : utf8Codes 0 0 0 (utf8 s) = some (s.toList.map Char.toNat) := utf8Codes_utf8 s.toList
  have none : marks.find? (fun entry => entry.1.isPrefixOf (utf8 s)) = none := by
    refine List.find?_eq_none.mpr ?_
    intro m hm begins
    obtain ⟨rest, hrest⟩ := List.isPrefixOf_iff_prefix.mp begins
    rw [← hrest] at points zero
    simp only [marks, List.mem_cons, List.not_mem_nil, or_false] at hm
    rcases hm with rfl | rfl | rfl | rfl | rfl
    · exact zero List.mem_cons_self
    · cases points
    · cases points
    · cases points
    · rw [utf8Codes_mark] at points
      obtain ⟨others, -, split⟩ := Option.map_eq_some_iff.mp points
      cases hs : s.toList with
      | nil =>
          rw [hs] at split
          exact List.cons_ne_nil _ _ split
      | cons c cs =>
          rw [hs, List.map_cons] at split
          have code : 0xFEFF = c.toNat := (List.cons.inj split).1
          have mark : c = Char.ofNat 0xFEFF := by rw [code, Char.ofNat_toNat]
          rw [hs, List.head?_cons, mark] at noMark
          exact noMark rfl
  rw [detect, none, unmarked_of_not_mem zero]

theorem unitChar_toNat (c : Char) : unitChar c.toNat = c := by
  have whole : ¬ (isHighUnit c.toNat || isLowUnit c.toNat) = true := by
    simp only [isHighUnit, isLowUnit, Bool.or_eq_true, Bool.and_eq_true, decide_eq_true_eq]
    rcases c.valid with low | ⟨high, -⟩
    · have low : c.toNat < 0xD800 := low
      omega
    · have high : 0xDFFF < c.toNat := high
      omega
  rw [unitChar, if_neg whole, Char.ofNat_toNat]

/-- **A text in UTF-8 is read as it is.** -/
theorem text?_utf8 (noZero : '\x00' ∉ s.toList)
    (noMark : s.toList.head? ≠ some (Char.ofNat 0xFEFF)) :
    text? (utf8 s) = some s := by
  have chars : (s.toList.map Char.toNat).map unitChar = s.toList := by
    rw [List.map_map]
    exact List.map_id'' unitChar_toNat s.toList
  rw [text?, detect_utf8 noZero noMark]
  show (utf8Codes 0 0 0 (utf8 s)).map _ = _
  rw [utf8, utf8Codes_utf8, Option.map_some, chars, String.ofList_toList]

/-! ## Pages of markup -/

/-- No value begins with an opening angle bracket. -/
theorem reader_markup (cs : List Char) :
    Value.Reader.read (String.ofList ('<' :: cs)) = .error .malformed := by
  have visible : Value.Reader.skipGap ('<' :: cs) = '<' :: cs := rfl
  rw [Value.Reader.read, String.toList_ofList, visible]
  rfl

/-- Bytes that begin with an opening angle bracket, as an encoding has it. -/
inductive Opens : Encoding → List UInt8 → Prop
  | utf8 (bs : List UInt8) : Opens .utf8 (0x3C :: bs)
  | utf16 (bs : List UInt8) : Opens (.utf16 false) (0x3C :: 0 :: bs)
  | utf32 (bs : List UInt8) : Opens (.utf32 false) (0x3C :: 0 :: 0 :: 0 :: bs)

/-- Bytes that begin with the byte for an opening angle bracket begin with one in their encoding. -/
theorem opens_detect (bs : List UInt8) :
    Opens (detect (0x3C :: bs)).1 (detect (0x3C :: bs)).2 := by
  have unmarked : detect (0x3C :: bs) = (unmarked (0x3C :: bs), 0x3C :: bs) := rfl
  rw [unmarked]
  rcases bs with _ | ⟨b, _ | ⟨c, _ | ⟨d, bs⟩⟩⟩
  · exact .utf8 _
  · by_cases hb : b = 0
    · subst hb
      exact .utf16 _
    · rw [Body.unmarked, if_neg (by decide), if_neg hb]
      exact .utf8 _
  · exact .utf8 _
  · by_cases hb : b = 0
    · subst hb
      by_cases hcd : c = 0 ∧ d = 0
      · obtain ⟨rfl, rfl⟩ := hcd
        exact .utf32 _
      · rw [Body.unmarked, if_neg (by decide), if_pos rfl, if_neg hcd]
        exact .utf16 _
    · rw [Body.unmarked, if_neg (by decide), if_neg hb]
      exact .utf8 _

/-- A code unit that opens no pair is a code point. -/
theorem joinPairs_whole {u : Nat} (h : isHighUnit u = false) (us : List Nat) :
    joinPairs (u :: us) = u :: joinPairs us := by
  cases us with
  | nil => rfl
  | cons v us => rw [joinPairs, h, Bool.false_and, if_neg Bool.false_ne_true]

theorem Opens.begins {e : Encoding} (h : Opens e bs) (hfound : codes bs e = some found) :
    ∃ more, found = 0x3C :: more := by
  cases h with
  | utf8 bs =>
      obtain ⟨more, -, rfl⟩ := Option.map_eq_some_iff.mp hfound
      exact ⟨more, rfl⟩
  | utf16 bs =>
      obtain ⟨units, hunits, rfl⟩ := Option.map_eq_some_iff.mp hfound
      obtain ⟨more, -, rfl⟩ := Option.map_eq_some_iff.mp hunits
      have bracket : unit false 0x3C 0 = 0x3C := by decide
      rw [bracket, joinPairs_whole (by decide)]
      exact ⟨joinPairs more, rfl⟩
  | utf32 bs =>
      have bracket : unit false 0 0 * 0x10000 + unit false 0x3C 0 = 0x3C := by decide
      simp only [codes, utf32Codes, Bool.false_eq_true, if_false, bracket] at hfound
      rw [if_pos (by decide)] at hfound
      obtain ⟨more, -, rfl⟩ := Option.map_eq_some_iff.mp hfound
      exact ⟨more, rfl⟩

/-- **No page of markup is a value**, in whatever encoding its bytes are. -/
theorem read_markup (bs : List UInt8) : ∃ reason, read (0x3C :: bs) = .error reason := by
  unfold read
  split
  next => exact ⟨_, rfl⟩
  next s hs =>
    obtain ⟨found, hfound, rfl⟩ := Option.map_eq_some_iff.mp hs
    obtain ⟨more, rfl⟩ := (opens_detect bs).begins hfound
    have opens : (0x3C :: more).map unitChar = '<' :: more.map unitChar := rfl
    rw [opens, reader_markup]
    exact ⟨_, rfl⟩

end Toolbar.Service.Body
