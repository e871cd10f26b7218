/-
# `Toolbar.Proofs.Value.Reading` — the reader takes back what is written

A value of the record format that is written down (`Value.write`) is read again as it was, whatever
closes it in a list or a map (`reads`).  The proof goes over the value: a text is read one character
at a time from what stands for it, digits end before a comma or a bracket, and the pieces of a list
and of a map are read by one argument (`pieces_read`).  The fuel that the reader is given is twice
the length of the text: one step for the value and one for its place in the list around it.
-/
import Toolbar.Proofs.Value.Canonical
import Toolbar.Value.Reader

namespace Toolbar

open Text

/-! ## Digits -/

namespace Text

/-- The digits of a number are those of its tenth part, when there is one, and its last digit. -/
theorem decimalDigits_induction {motive : Nat → List Char → Prop}
    (digit : ∀ d < 10, motive d [d.digitChar])
    (more : ∀ n ds, n ≠ 0 → motive n ds → ∀ d < 10, motive (10 * n + d) (ds ++ [d.digitChar]))
    (n : Nat) : motive n (decimalDigits n) := by
  induction n using Nat.strongRecOn with
  | ind n ih =>
      by_cases small : n < 10
      · rw [decimalDigits, Nat.toDigits_of_lt_base small]
        exact digit n small
      · have split : decimalDigits n = decimalDigits (n / 10) ++ [(n % 10).digitChar] :=
          Nat.toDigits_of_base_le (by decide) (by omega)
        have value : 10 * (n / 10) + n % 10 = n := Nat.div_add_mod n 10
        have step := more (n / 10) _ (by omega) (ih (n / 10) (by omega)) (n % 10) (by omega)
        rwa [value, ← split] at step

/-- Only zero is written with a zero in front. -/
theorem decimalDigits_head {n : Nat} (h : n ≠ 0) :
    ∃ d ds, decimalDigits n = d :: ds ∧ d ≠ '0' := by
  refine decimalDigits_induction (motive := fun n cs => n ≠ 0 → ∃ d ds, cs = d :: ds ∧ d ≠ '0')
    (fun d _ nonzero => ?_) (fun n _ nonzero ih d _ _ => ?_) n h
  · exact ⟨_, _, rfl, by simpa using nonzero⟩
  · obtain ⟨e, es, rfl, head⟩ := ih nonzero
    exact ⟨e, es ++ [d.digitChar], rfl, head⟩

end Text

namespace Number

/-- The digits of a number denote it. -/
theorem digitsValue_decimalDigits (n : Nat) : digitsValue (decimalDigits n) = n := by
  have digit : ∀ d < 10, digitValue? d.digitChar = some d := by decide
  refine decimalDigits_induction (motive := fun n cs => digitsValue cs = n) (fun d hd => ?_)
    (fun n ds _ ih d hd => ?_) n
  · simp [digitsValue, digit d hd]
  · rw [digitsValue, List.foldl_append, ← digitsValue, ih]
    simp [digit d hd]

end Number

namespace Fields

theorem set_of_fresh {fields : Fields} {key : String} {v : Value}
    (fresh : key ∉ fields.map (·.1)) : fields.set key v = fields ++ [(key, v)] := by
  induction fields with
  | nil => rfl
  | cons f fs ih =>
      obtain ⟨k, w⟩ := f
      obtain ⟨other, fresh⟩ := not_or.mp (List.mem_cons.not.mp fresh)
      rw [set, if_neg (by simpa using Ne.symm other), ih fresh, List.cons_append]

/-- Fields with new and distinct keys are put at the end. -/
theorem update_of_nodup {fields others : Fields} (h : ((fields ++ others).map (·.1)).Nodup) :
    fields.update others = fields ++ others := by
  induction others generalizing fields with
  | nil => exact (List.append_nil fields).symm
  | cons f fs ih =>
      obtain ⟨k, v⟩ := f
      have fresh : k ∉ fields.map (·.1) := by
        rw [List.map_append, List.map_cons] at h
        exact fun hk => (List.nodup_append.mp h).2.2 k hk k List.mem_cons_self rfl
      have first : fields.update ((k, v) :: fs) = (fields.set k v).update fs := rfl
      rw [List.append_cons] at h ⊢
      rw [first, set_of_fresh fresh, ih h]

theorem ofPairs_of_nodup {fields : Fields} (h : (fields.map (·.1)).Nodup) :
    ofPairs fields = fields :=
  @update_of_nodup [] fields h

end Fields

namespace Value.Reader

open Number

/-! ## Texts -/

theorem unit?_append {ds rest : List Char} {n : Nat} (cs : List Char)
    (h : unit? ds = some (n, rest)) :
    unit? (ds ++ cs) = some (n, rest ++ cs) := by
  rcases ds with _ | ⟨a, _ | ⟨b, _ | ⟨c, _ | ⟨d, ds⟩⟩⟩⟩
  · cases h
  · cases h
  · cases h
  · cases h
  · simp only [unit?, Option.bind_eq_bind, Option.bind_eq_some_iff] at h
    obtain ⟨x, hx, y, hy, z, hz, w, hw, value⟩ := h
    cases value
    simp [unit?, hx, hy, hz, hw]

/-- A character is read from what stands for it. -/
theorem textFrom_recordEscape (fuel : Nat) (before : List Char) (c : Char) (cs : List Char) :
    textFrom (fuel + 1) before (recordEscape c ++ cs) = textFrom fuel (c :: before) cs := by
  obtain ⟨e, escape, letter⟩ | ⟨small, escape⟩ | ⟨escape, mark, backslash, large⟩ :=
    recordEscape_cases c
  · have digits : e ≠ 'u' := (unescaped_of_letterEscape? letter).1
    rw [escape, List.cons_append, List.cons_append, List.nil_append, textFrom, letter]
    · rfl
    · exact digits
  · have control : ∀ n < 0x20, unit? (hexDigits 4 n) = some (n, []) ∧ isHighUnit n = false ∧
        unitChar n = Char.ofNat n := by decide
    obtain ⟨unit, low, itself⟩ := control c.toNat small
    have read := unit?_append cs unit
    rw [List.nil_append] at read
    rw [escape, List.cons_append, List.cons_append, textFrom]
    simp [read, low, itself]
  · rw [escape]
    simp [textFrom, mark, backslash, large]

/-- A text is read up to its closing mark. -/
theorem textFrom_escaped {fuel : Nat} (before cs rest : List Char) (h : cs.length < fuel) :
    textFrom fuel before (cs.flatMap recordEscape ++ '"' :: rest) =
      some (before.reverse ++ cs, rest) := by
  induction cs generalizing fuel before with
  | nil =>
      obtain ⟨fuel, rfl⟩ : ∃ k, fuel = k + 1 := ⟨fuel - 1, by simp at h; omega⟩
      simp [textFrom]
  | cons c cs ih =>
      obtain ⟨fuel, rfl⟩ : ∃ k, fuel = k + 1 := ⟨fuel - 1, by simp at h; omega⟩
      rw [List.flatMap_cons, List.append_assoc, textFrom_recordEscape,
        ih (c :: before) (by simpa using h)]
      simp

/-- Nothing is shorter than what it stands for. -/
theorem length_le_escaped (cs : List Char) : cs.length ≤ (cs.flatMap recordEscape).length := by
  induction cs with
  | nil => exact Nat.le_refl 0
  | cons c cs ih =>
      obtain ⟨e, es, escape, -⟩ := recordEscape_head c
      rw [List.flatMap_cons, escape]
      simp only [List.cons_append, List.length_cons, List.length_append]
      omega

theorem text?_escaped (s : String) (rest : List Char) :
    text? (s.toList.flatMap recordEscape ++ '"' :: rest) = some (s, rest) := by
  have enough := length_le_escaped s.toList
  rw [text?, textFrom_escaped [] _ _ (by rw [List.length_append]; omega)]
  simp

/-- A text in quotation marks is its first mark, the text, and the mark that closes it. -/
theorem recordQuoted_append (s : String) (rest : List Char) :
    (recordQuoted s).toList ++ rest =
      '"' :: (s.toList.flatMap recordEscape ++ '"' :: rest) := by
  simp [recordQuoted]

/-! ## Numbers -/

/-- What may stand behind a value in a list or a map: nothing, or a character that ends it. -/
def Closed (rest : List Char) : Prop :=
  ∀ c cs, rest = c :: cs → c = ',' ∨ c = ']' ∨ c = '\x7d'

theorem closed_nil : Closed [] :=
  nofun

theorem closed_cons {c : Char} (h : c = ',' ∨ c = ']' ∨ c = '\x7d') (cs : List Char) :
    Closed (c :: cs) := by
  rintro _ _ ⟨⟩
  exact h

section Reading

variable {rest : List Char}

theorem Closed.ends (h : Closed rest) : Ends rest := by
  intro c cs equal
  obtain rfl | rfl | rfl := h c cs equal <;> decide

theorem Closed.fraction (h : Closed rest) : fraction rest = ([], rest) := by
  cases rest with
  | nil => rfl
  | cons c cs => obtain rfl | rfl | rfl := h c cs rfl <;> rfl

theorem Closed.exponent (h : Closed rest) : exponent rest = (none, rest) := by
  cases rest with
  | nil => rfl
  | cons c cs => obtain rfl | rfl | rfl := h c cs rfl <;> rfl

theorem whole?_decimalDigits (h : Ends rest) (n : Nat) :
    whole? (decimalDigits n ++ rest) = some (decimalDigits n, rest) := by
  by_cases zero : n = 0
  · subst zero
    rfl
  · obtain ⟨d, ds, digits, head⟩ := decimalDigits_head zero
    have all : ∀ c ∈ d :: ds, isAsciiDigit c = true :=
      digits ▸ fun c => isDigit_of_mem_decimalDigits
    have stops : rest.takeWhile isAsciiDigit = [] := h.takeWhile
    have taken : (d :: ds ++ rest).takeWhile isAsciiDigit = d :: ds := by
      rw [List.takeWhile_append_of_pos all, stops, List.append_nil]
    have left : (d :: ds ++ rest).dropWhile isAsciiDigit = rest := by
      have whole := List.takeWhile_append_dropWhile (p := isAsciiDigit) (l := d :: ds ++ rest)
      rw [taken] at whole
      exact List.append_cancel_left whole
    rw [digits, List.cons_append, whole?, if_pos (all d List.mem_cons_self), ← List.cons_append,
      taken, left]
    exact head

/-- Digits with no more of them than a text may have are an integer. -/
theorem number_decimalDigits (h : Closed rest) {n : Nat}
    (short : (decimalDigits n).length ≤ digitLimit) (negative : Bool) :
    number negative (decimalDigits n ++ rest) =
      .ok (.int (if negative then -(n : Int) else n), rest) := by
  have whole := whole?_decimalDigits h.ends n
  simp [number, whole, h.fraction, h.exponent, integerOf, Nat.not_lt.mpr short,
    digitsValue_decimalDigits]

/-- No word begins with a digit, nor with a sign before one. -/
theorem word?_of_digit {d : Char} (h : d.isDigit = true) (cs : List Char) :
    word? (d :: cs) words = none ∧ word? ('-' :: d :: cs) words = none := by
  have letter : ∀ c, c.isDigit = false → ¬ c = d := by
    rintro c hc rfl
    rw [h] at hc
    cases hc
  constructor
  · simp [words, word?, dropPart?, letter]
  · simp [words, word?, dropPart?, letter]

theorem atom_int (h : Closed rest) {i : Int} (short : Short i) :
    atom (Binary64.signed (i < 0) (decimalDigits i.natAbs) ++ rest) =
      .ok (.num (.int i), rest) := by
  have read := number_decimalDigits h short
  obtain ⟨d, ds, digits⟩ : ∃ d ds, decimalDigits i.natAbs = d :: ds :=
    List.exists_cons_of_ne_nil Nat.toDigits_ne_nil
  have digit : d.isDigit = true :=
    isDigit_of_mem_decimalDigits (n := i.natAbs) (digits ▸ List.mem_cons_self)
  rw [digits] at read ⊢
  simp only [List.cons_append] at read
  -- The sign is taken off before the digits are read, and no digit is taken for one.
  by_cases negative : i < 0
  · have value : -(i.natAbs : Int) = i := by omega
    rw [Binary64.signed, if_pos (by simpa using negative), List.cons_append, List.cons_append, atom,
      (word?_of_digit digit _).2]
    simp only [read, if_true, value]
    rfl
  · have value : (i.natAbs : Int) = i := by omega
    have sign : d ≠ '-' := by
      rintro rfl
      cases digit
    rw [Binary64.signed, if_neg (by simpa using negative), List.cons_append, atom,
      (word?_of_digit digit _).1]
    dsimp only
    split
    next minus => exact absurd (List.cons.inj minus).1 sign
    next =>
      simp only [read, Bool.false_eq_true, if_false, value]
      rfl

end Reading

/-! ## Values -/

section Pieces

variable {α : Type} {w : α → List Char} {close : Char} {as : List α}
  {piecesFrom : Nat → List Char → Except Unreadable (List α × List Char)}

/-- The text begins with no blank. -/
def Visible (cs : List Char) : Prop :=
  ∃ c rest, cs = c :: rest ∧ isBlank c = false

theorem Visible.pos {cs : List Char} (h : Visible cs) : 0 < cs.length := by
  obtain ⟨c, rest, rfl, -⟩ := h
  exact Nat.succ_pos _

theorem Visible.skipGap {cs : List Char} (h : Visible cs) (rest : List Char) :
    skipGap (cs ++ rest) = cs ++ rest := by
  obtain ⟨c, cs, rfl, blank⟩ := h
  have gap : ¬ isGap c = true := by
    intro gap
    obtain ((rfl | rfl) | rfl) | rfl : ((c = ' ' ∨ c = '\t') ∨ c = '\n') ∨ c = '\r' := by
      simpa [isGap] using gap
    all_goals cases blank
  exact List.dropWhile_cons_of_neg gap

/-- Pieces between commas are read when one of them is, before the bracket that closes them and
before a comma. -/
theorem pieces_read (nonempty : as ≠ []) (visible : ∀ a ∈ as, Visible (w a))
    (last : ∀ a ∈ as, ∀ fuel rest, 2 * (w a).length ≤ fuel →
      piecesFrom (fuel + 1) (w a ++ close :: rest) = .ok ([a], rest))
    (more : ∀ a ∈ as, ∀ fuel rest, 2 * (w a).length ≤ fuel →
      piecesFrom (fuel + 1) (w a ++ ',' :: rest) =
        (piecesFrom fuel (skipGap rest)).map fun r => (a :: r.1, r.2))
    {fuel : Nat} (enough : 2 * (joinWith [','] (as.map w)).length < fuel) (rest : List Char) :
    piecesFrom fuel (joinWith [','] (as.map w) ++ close :: rest) = .ok (as, rest) := by
  induction as generalizing fuel with
  | nil => exact absurd rfl nonempty
  | cons a as ih =>
      obtain ⟨fuel, rfl⟩ : ∃ k, fuel = k + 1 := ⟨fuel - 1, by omega⟩
      have first := List.mem_cons_self (a := a) (l := as)
      -- One step of fuel for the first piece; the others are shorter by it and its comma.
      cases as with
      | nil =>
          have enough : 2 * (w a).length < fuel + 1 := enough
          exact last a first fuel rest (by omega)
      | cons b bs =>
          have next : b ∈ a :: b :: bs := List.mem_cons_of_mem a List.mem_cons_self
          have later : ∀ {c}, c ∈ b :: bs → c ∈ a :: b :: bs := List.mem_cons_of_mem a
          have positive := (visible a first).pos
          have size := congrArg List.length (joinWith_behind (w := w) a (b :: bs) [])
          simp only [behindPiece, List.append_nil, List.length_append, List.length_cons] at size
          have tail : piecesFrom fuel (joinWith [','] ((b :: bs).map w) ++ close :: rest) =
              .ok (b :: bs, rest) :=
            ih (List.cons_ne_nil _ _) (fun c hc => visible c (later hc))
              (fun c hc => last c (later hc)) (fun c hc => more c (later hc)) (by omega)
          rw [joinWith_behind, behindPiece, more a first _ _ (by omega), joinWith_behind,
            (visible b next).skipGap, ← joinWith_behind, tail]
          rfl

end Pieces

/-- What is written is read back, whatever closes it. -/
def Reads (v : Value) : Prop :=
  ∀ fuel rest, Closed rest → 2 * v.write.length ≤ fuel →
    valueFrom fuel (v.write ++ rest) = .ok (v, rest)

section Values

variable {v : Value}

theorem not_blank_of_isDigit {c : Char} (h : c.isDigit = true) : isBlank c = false := by
  simp only [Char.isDigit, ge_iff_le, Bool.and_eq_true, decide_eq_true_eq,
    UInt32.le_iff_toNat_le] at h
  have low : 48 ≤ c.toNat := h.1
  have high : c.toNat ≤ 57 := h.2
  simp [isBlank]
  omega

theorem visible_write (h : v.Simple) : Visible v.write := by
  obtain ⟨c, cs, hc, kind⟩ := h.write_head
  refine ⟨c, cs, hc, Bool.eq_false_iff.mpr fun blank => ?_⟩
  -- A blank is no letter, sign or digit, so it would be the mark of the kind itself.
  have itself : markOf c = c := by
    have letter : c ≠ 'f' := by
      rintro rfl
      cases blank
    have sign : c ≠ '-' := by
      rintro rfl
      cases blank
    have digit : ¬ c.isDigit = true := by
      intro digit
      rw [not_blank_of_isDigit digit] at blank
      cases blank
    rw [markOf, if_neg letter, if_neg (by simp [sign, digit])]
  have mark : isBlank v.mark = false := by cases h <;> rfl
  rw [← kind, itself, blank] at mark
  cases mark

theorem visible_writeField (f : String × Value) : Visible (writeField f) :=
  ⟨_, _, by rw [writeField, recordQuoted_append], rfl⟩

theorem itemsFrom_close {fuel : Nat} {cs rest : List Char}
    (h : valueFrom fuel cs = .ok (v, ']' :: rest)) : itemsFrom (fuel + 1) cs = .ok ([v], rest) := by
  rw [itemsFrom, h]
  rfl

theorem itemsFrom_comma {fuel : Nat} {cs rest : List Char}
    (h : valueFrom fuel cs = .ok (v, ',' :: rest)) :
    itemsFrom (fuel + 1) cs =
      (itemsFrom fuel (skipGap rest)).map fun r => (v :: r.1, r.2) := by
  rw [itemsFrom, h]
  show (itemsFrom fuel (skipGap rest) >>= _) = _
  cases itemsFrom fuel (skipGap rest) <;> rfl

theorem fieldsFrom_close {fuel : Nat} {key : String} {cs rest : List Char}
    (h : valueFrom fuel (skipGap cs) = .ok (v, '\x7d' :: rest)) :
    fieldsFrom (fuel + 1) ((recordQuoted key).toList ++ ':' :: cs) = .ok ([(key, v)], rest) := by
  rw [recordQuoted_append, fieldsFrom, text?_escaped]
  show (valueFrom fuel (skipGap cs) >>= _) = _
  rw [h]
  rfl

theorem fieldsFrom_comma {fuel : Nat} {key : String} {cs rest : List Char}
    (h : valueFrom fuel (skipGap cs) = .ok (v, ',' :: rest)) :
    fieldsFrom (fuel + 1) ((recordQuoted key).toList ++ ':' :: cs) =
      (fieldsFrom fuel (skipGap rest)).map fun r => ((key, v) :: r.1, r.2) := by
  rw [recordQuoted_append, fieldsFrom, text?_escaped]
  show (valueFrom fuel (skipGap cs) >>= _) = _
  rw [h]
  show (fieldsFrom fuel (skipGap rest) >>= _) = _
  cases fieldsFrom fuel (skipGap rest) <;> rfl

theorem itemsFrom_write {items : List Value} (nonempty : items ≠ [])
    (simple : ∀ v ∈ items, v.Simple) (reads : ∀ v ∈ items, Reads v) {fuel : Nat}
    (enough : 2 * (joinWith [','] (items.map write)).length < fuel) (rest : List Char) :
    itemsFrom fuel (joinWith [','] (items.map write) ++ ']' :: rest) = .ok (items, rest) := by
  refine pieces_read nonempty (fun v hv => visible_write (simple v hv))
    (fun v hv fuel rest enough => ?_) (fun v hv fuel rest enough => ?_) enough rest
  · exact itemsFrom_close (reads v hv fuel _ (closed_cons (by simp) rest) enough)
  · exact itemsFrom_comma (reads v hv fuel _ (closed_cons (by simp) rest) enough)

theorem fieldsFrom_write {fields : Fields} (nonempty : fields ≠ [])
    (simple : ∀ f ∈ fields, f.2.Simple) (reads : ∀ f ∈ fields, Reads f.2) {fuel : Nat}
    (enough : 2 * (joinWith [','] (fields.map writeField)).length < fuel) (rest : List Char) :
    fieldsFrom fuel (joinWith [','] (fields.map writeField) ++ '\x7d' :: rest) =
      .ok (fields, rest) := by
  have shorter : ∀ (f : String × Value) {fuel : Nat}, 2 * (writeField f).length ≤ fuel →
      2 * f.2.write.length ≤ fuel := by
    intro f fuel h
    simp [writeField] at h
    omega
  refine pieces_read nonempty (fun f _ => visible_writeField f)
    (fun f hf fuel rest enough => ?_) (fun f hf fuel rest enough => ?_) enough rest
  · rw [writeField, List.append_assoc, List.cons_append]
    refine fieldsFrom_close ?_
    rw [(visible_write (simple f hf)).skipGap]
    exact reads f hf fuel _ (closed_cons (by simp) rest) (shorter f enough)
  · rw [writeField, List.append_assoc, List.cons_append]
    refine fieldsFrom_comma ?_
    rw [(visible_write (simple f hf)).skipGap]
    exact reads f hf fuel _ (closed_cons (by simp) rest) (shorter f enough)

theorem valueFrom_int (fuel : Nat) {i : Int} (short : Short i) {rest : List Char}
    (closed : Closed rest) :
    valueFrom (fuel + 1) ((Value.num (.int i)).write ++ rest) = .ok (.num (.int i), rest) := by
  have read : atom ((Value.num (.int i)).write ++ rest) = .ok (.num (.int i), rest) :=
    atom_int closed short
  obtain ⟨c, cs, hc, kind⟩ := (Simple.int i).write_head
  rw [hc, List.cons_append] at read ⊢
  rw [valueFrom]
  · exact read
  all_goals
    rintro t ⟨⟩
    cases kind

theorem valueFrom_list {fuel : Nat} {items : List Value} {rest : List Char}
    (simple : ∀ v ∈ items, v.Simple)
    (read : items ≠ [] → itemsFrom fuel (joinWith [','] (items.map write) ++ ']' :: rest) =
      .ok (items, rest)) :
    valueFrom (fuel + 1) ((list items).write ++ rest) = .ok (.list items, rest) := by
  rw [write_list]
  cases items with
  | nil => rfl
  | cons v vs =>
      have read := read (List.cons_ne_nil _ _)
      have visible := visible_write (simple v List.mem_cons_self)
      simp only [List.cons_append, List.append_assoc, List.nil_append]
      rw [joinWith_behind] at read ⊢
      rw [valueFrom, visible.skipGap]
      split
      next t equal => exact absurd equal ((simple v List.mem_cons_self).opens t)
      next =>
        rw [read]
        rfl

theorem valueFrom_map {fuel : Nat} {fields : Fields} {rest : List Char}
    (distinct : (fields.map (·.1)).Nodup)
    (read : fields ≠ [] →
      fieldsFrom fuel (joinWith [','] (fields.map writeField) ++ '\x7d' :: rest) =
        .ok (fields, rest)) :
    valueFrom (fuel + 1) ((map fields).write ++ rest) = .ok (.map fields, rest) := by
  rw [write_map]
  cases fields with
  | nil => rfl
  | cons f fs =>
      have read := read (List.cons_ne_nil _ _)
      simp only [List.cons_append, List.append_assoc, List.nil_append]
      rw [joinWith_behind] at read ⊢
      rw [valueFrom, (visible_writeField f).skipGap]
      split
      next t equal => exact absurd equal (writeField_opens f t)
      next =>
        rw [read]
        show Except.ok (Value.map (Fields.ofPairs (f :: fs)), rest) = _
        rw [Fields.ofPairs_of_nodup distinct]

/-- What is written is read back. -/
theorem reads (h : v.Simple) (short : ∀ i ∈ v.integers, Short i) : Reads v := by
  have step : ∀ {v : Value}, v.Simple → (∀ fuel rest, Closed rest →
      2 * v.write.length ≤ fuel + 1 → valueFrom (fuel + 1) (v.write ++ rest) = .ok (v, rest)) →
      Reads v := by
    intro v h step fuel rest closed enough
    have positive := (visible_write h).pos
    obtain ⟨fuel, rfl⟩ : ∃ k, fuel = k + 1 := ⟨fuel - 1, by omega⟩
    exact step fuel rest closed enough
  induction h with
  | null => exact step .null fun fuel rest _ _ => rfl
  | bool b => exact step (.bool b) fun fuel rest _ _ => by cases b <;> rfl
  | int i =>
      exact step (.int i) fun fuel rest closed _ =>
        valueFrom_int fuel (short i List.mem_cons_self) closed
  | text s =>
      refine step (.text s) fun fuel rest _ _ => ?_
      rw [write, recordQuoted_append, valueFrom, text?_escaped]
  | @list items simple ih =>
      refine step (.list simple) fun fuel rest _ enough => valueFrom_list simple fun nonempty => ?_
      rw [write_list] at enough
      simp only [List.length_append, List.length_cons] at enough
      refine itemsFrom_write nonempty simple (fun v hv => ih v hv fun i hi => ?_) (by omega) rest
      exact short i (mem_integers_list.mpr ⟨v, hv, hi⟩)
  | @map fields distinct simple ih =>
      refine step (.map distinct simple) fun fuel rest _ enough =>
        valueFrom_map distinct fun nonempty => ?_
      rw [write_map] at enough
      simp only [List.length_append, List.length_cons] at enough
      refine fieldsFrom_write nonempty simple (fun f hf => ih f hf fun i hi => ?_) (by omega) rest
      exact short i (mem_integers_map.mpr ⟨f, hf, hi⟩)

/-- The whole of what is written denotes the value. -/
theorem read_write (h : v.Simple) (short : ∀ i ∈ v.integers, Short i) :
    read (String.ofList v.write) = .ok v := by
  have visible := (visible_write h).skipGap []
  rw [List.append_nil] at visible
  have whole := reads h short (2 * v.write.length + 2) [] closed_nil (by omega)
  rw [List.append_nil] at whole
  rw [read, String.toList_ofList]
  dsimp only
  rw [visible, whole]
  rfl

end Values

end Value.Reader

end Toolbar
