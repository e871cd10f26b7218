/-
# `Toolbar.Proofs.Value.Canonical` — the canonical text identifies the value

The canonical text of a value of the record format is its normal form, written down (`write`).  What
is written can be read in one way only: the first character tells the kind of the value, a text ends
at the first quotation mark that is not escaped, digits end where no digit follows, and lists and
maps end at their brackets.  So values that have one canonical text have one normal form, and these
are the values that agree up to the order of keys (`canonical_identifies`).
-/
import Toolbar.Proofs.Text.Replace
import Toolbar.Proofs.Value.Normal
import Toolbar.Value.Reader

namespace Toolbar

open Text

/-! ## Texts in quotation marks -/

namespace Text

/-- The character that a letter behind a backslash stands for. -/
def unescaped (c : Char) : Char :=
  if c = 'n' then '\n'
  else if c = 'r' then '\r'
  else if c = 't' then '\t'
  else if c = 'b' then Char.ofNat 0x08
  else if c = 'f' then Char.ofNat 0x0C
  else c

/-- What is read behind a backslash: the last two of four hexadecimal digits, or a letter. -/
def readBehind : List Char → Option (Char × List Char)
  | [] => none
  | c :: cs =>
      if c = 'u' then some (Char.ofNat (16 * ((cs[2]?.bind hexValue?).getD 0)
        + (cs[3]?.bind hexValue?).getD 0), cs.drop 4)
      else some (unescaped c, cs)

/-- The first character of an escaped text, and what follows. -/
def readEscaped : List Char → Option (Char × List Char)
  | [] => none
  | c :: cs => if c = '\\' then readBehind cs else some (c, cs)

/-- Control characters are written with two hexadecimal digits that tell them apart. -/
theorem hexDigits_four : ∀ n < 0x20, ∃ a b, hexDigits 4 n = ['0', '0', a, b] ∧
    16 * (hexValue? a).getD 0 + (hexValue? b).getD 0 = n := by
  intro n hn
  refine ⟨((hexDigits 4 n)[2]?).getD '0', ((hexDigits 4 n)[3]?).getD '0', ?_⟩
  revert n
  decide

/-- A character is written as a letter or four hexadecimal digits behind a backslash, or stands for
itself. -/
theorem recordEscape_cases (c : Char) :
    (∃ e, recordEscape c = ['\\', e] ∧ Value.Reader.letterEscape? e = some c) ∨
    (c.toNat < 0x20 ∧ recordEscape c = '\\' :: 'u' :: hexDigits 4 c.toNat) ∨
    (recordEscape c = [c] ∧ c ≠ '"' ∧ c ≠ '\\' ∧ ¬ c.toNat < 0x20) := by
  have number : ∀ n, (c.toNat == n) = true → c = Char.ofNat n := by
    intro n h
    rw [← beq_iff_eq.mp h, Char.ofNat_toNat]
  fun_cases recordEscape c with
  | case1 h =>
      refine .inl ⟨c, rfl, ?_⟩
      obtain rfl | rfl : c = '"' ∨ c = '\\' := by simpa using h
      · rfl
      · rfl
  | case2 _ h => exact .inl ⟨'n', rfl, by rw [beq_iff_eq.mp h]; rfl⟩
  | case3 _ _ h => exact .inl ⟨'r', rfl, by rw [beq_iff_eq.mp h]; rfl⟩
  | case4 _ _ _ h => exact .inl ⟨'t', rfl, by rw [beq_iff_eq.mp h]; rfl⟩
  | case5 _ _ _ _ h => exact .inl ⟨'b', rfl, by rw [number _ h]; rfl⟩
  | case6 _ _ _ _ _ h => exact .inl ⟨'f', rfl, by rw [number _ h]; rfl⟩
  | case7 _ _ _ _ _ _ small => exact .inr (.inl ⟨small, rfl⟩)
  | case8 plain _ _ _ _ _ large =>
      exact .inr (.inr ⟨rfl, fun h => plain (by simp [h]), fun h => plain (by simp [h]), large⟩)

theorem unescaped_of_letterEscape? {e c : Char} (h : Value.Reader.letterEscape? e = some c) :
    e ≠ 'u' ∧ unescaped e = c := by
  refine ⟨?_, ?_⟩
  · rintro rfl
    cases h
  · revert h
    fun_cases Value.Reader.letterEscape? e with
    | case1 h =>
        rintro ⟨⟩
        obtain (rfl | rfl) | rfl : (e = '"' ∨ e = '\\') ∨ e = '/' := by simpa using h
        all_goals rfl
    | case2 _ h => rintro ⟨⟩; rw [beq_iff_eq.mp h]; rfl
    | case3 _ _ h => rintro ⟨⟩; rw [beq_iff_eq.mp h]; rfl
    | case4 _ _ _ h => rintro ⟨⟩; rw [beq_iff_eq.mp h]; rfl
    | case5 _ _ _ _ h => rintro ⟨⟩; rw [beq_iff_eq.mp h]; rfl
    | case6 _ _ _ _ _ h => rintro ⟨⟩; rw [beq_iff_eq.mp h]; rfl
    | case7 => nofun

/-- What is escaped is read back, whatever follows. -/
theorem readEscaped_recordEscape (c : Char) (cs : List Char) :
    readEscaped (recordEscape c ++ cs) = some (c, cs) := by
  obtain ⟨e, escape, letter⟩ | ⟨small, escape⟩ | ⟨escape, -, backslash, -⟩ := recordEscape_cases c
  · obtain ⟨digits, value⟩ := unescaped_of_letterEscape? letter
    rw [escape]
    show readBehind (e :: cs) = some (c, cs)
    rw [readBehind, if_neg digits, value]
  · obtain ⟨a, b, digits, value⟩ := hexDigits_four c.toNat small
    rw [escape, digits]
    show some (Char.ofNat (16 * (hexValue? a).getD 0 + (hexValue? b).getD 0), cs) = some (c, cs)
    rw [value, Char.ofNat_toNat]
  · rw [escape]
    exact if_neg backslash

/-- What is escaped does not begin with a quotation mark. -/
theorem recordEscape_head (c : Char) : ∃ e es, recordEscape c = e :: es ∧ e ≠ '"' := by
  obtain ⟨e, escape, -⟩ | ⟨-, escape⟩ | ⟨escape, mark, -, -⟩ := recordEscape_cases c
  · exact ⟨_, _, escape, by decide⟩
  · exact ⟨_, _, escape, by decide⟩
  · exact ⟨_, _, escape, mark⟩

/-- A text is read up to the first quotation mark that is not escaped. -/
theorem escaped_inj {cs ds r r' : List Char}
    (h : cs.flatMap recordEscape ++ '"' :: r = ds.flatMap recordEscape ++ '"' :: r') :
    cs = ds ∧ r = r' := by
  have opens : ∀ (d : Char) (ds : List Char) {x y : List Char},
      '"' :: x ≠ (d :: ds).flatMap recordEscape ++ y := by
    intro d ds x y h
    obtain ⟨e, es, escape, mark⟩ := recordEscape_head d
    rw [List.flatMap_cons, escape] at h
    exact mark (List.cons.inj h).1.symm
  induction cs generalizing ds with
  | nil =>
      cases ds with
      | nil => exact ⟨rfl, (List.cons.inj h).2⟩
      | cons d ds => exact absurd h (opens d ds)
  | cons c cs ih =>
      cases ds with
      | nil => exact absurd h.symm (opens c cs)
      | cons d ds =>
          have read := congrArg readEscaped h
          rw [List.flatMap_cons, List.flatMap_cons, List.append_assoc, List.append_assoc,
            readEscaped_recordEscape, readEscaped_recordEscape] at read
          obtain ⟨rfl, rest⟩ := Prod.mk.inj (Option.some.inj read)
          obtain ⟨rfl, rfl⟩ := ih rest
          exact ⟨rfl, rfl⟩

theorem recordQuoted_inj {s t : String} {r r' : List Char}
    (h : (recordQuoted s).toList ++ r = (recordQuoted t).toList ++ r') : s = t ∧ r = r' := by
  simp only [recordQuoted, String.toList_ofList, List.cons_append, List.append_assoc,
    List.nil_append] at h
  obtain ⟨equal, rest⟩ := escaped_inj (List.cons.inj h).2
  exact ⟨String.toList_injective equal, rest⟩

/-! ## Digits -/

/-- No digit follows. -/
def Ends (r : List Char) : Prop :=
  ∀ c cs, r = c :: cs → c.isDigit = false

theorem ends_nil : Ends [] :=
  nofun

theorem ends_cons {c : Char} (h : c.isDigit = false) (cs : List Char) : Ends (c :: cs) := by
  rintro _ _ ⟨⟩
  exact h

theorem Ends.takeWhile {r : List Char} (h : Ends r) : r.takeWhile Char.isDigit = [] := by
  cases r with
  | nil => rfl
  | cons c cs => exact List.takeWhile_cons_of_neg (by simp [h c cs rfl])

theorem isDigit_of_mem_decimalDigits {n : Nat} {c : Char} (h : c ∈ decimalDigits n) :
    c.isDigit = true :=
  Nat.isDigit_of_mem_toDigits (b := 10) (by decide) (by decide) h

theorem digits_inj {m n : Nat} {r r' : List Char} (hr : Ends r) (hr' : Ends r')
    (h : decimalDigits m ++ r = decimalDigits n ++ r') : m = n ∧ r = r' := by
  have digits : ∀ (k : Nat) {t : List Char}, Ends t →
      (decimalDigits k ++ t).takeWhile Char.isDigit = decimalDigits k := by
    intro k t ht
    rw [List.takeWhile_append_of_pos fun c => isDigit_of_mem_decimalDigits, ht.takeWhile,
      List.append_nil]
  have equal : decimalDigits m = decimalDigits n := by
    rw [← digits m hr, h, digits n hr']
  rw [equal] at h
  have value := congrArg (Nat.ofDigitChars 10 · 0) equal
  refine ⟨?_, List.append_cancel_left h⟩
  simpa only [decimalDigits, Nat.ofDigitChars_ten_toDigits] using value

theorem signed_inj {i j : Int} {r r' : List Char} (hr : Ends r) (hr' : Ends r')
    (h : Binary64.signed (i < 0) (decimalDigits i.natAbs) ++ r =
      Binary64.signed (j < 0) (decimalDigits j.natAbs) ++ r') : i = j ∧ r = r' := by
  have minus : ∀ (n : Nat) {x y : List Char}, '-' :: x ≠ decimalDigits n ++ y := by
    intro n x y h
    cases digits : decimalDigits n with
    | nil => exact Nat.toDigits_ne_nil digits
    | cons d ds =>
        have digit : d.isDigit = true :=
          isDigit_of_mem_decimalDigits (n := n) (digits ▸ List.mem_cons_self)
        rw [digits] at h
        obtain rfl := (List.cons.inj h).1
        exact absurd digit (by decide)
  by_cases hi : i < 0 <;> by_cases hj : j < 0 <;>
    simp only [Binary64.signed, hi, hj, decide_true, decide_false, if_true, if_false,
      Bool.false_eq_true, List.cons_append] at h
  · obtain ⟨size, rest⟩ := digits_inj hr hr' (List.cons.inj h).2
    exact ⟨by omega, rest⟩
  · exact absurd h (minus _)
  · exact absurd h.symm (minus _)
  · obtain ⟨size, rest⟩ := digits_inj hr hr' h
    exact ⟨by omega, rest⟩

/-! ## Pieces between commas -/

section Pieces

variable {α : Type} {w : α → List Char} {close : Char} {as bs : List α} {r r' : List Char}

/-- What follows the first of some pieces. -/
def behindPiece (w : α → List Char) (as : List α) (r : List Char) : List Char :=
  match as with
  | [] => r
  | a :: as => ',' :: (joinWith [','] ((a :: as).map w) ++ r)

theorem joinWith_behind (a : α) (as : List α) (r : List Char) :
    joinWith [','] ((a :: as).map w) ++ r = w a ++ behindPiece w as r := by
  cases as with
  | nil => rfl
  | cons b bs =>
      rw [List.map_cons, joinWith_cons (by simp)]
      simp [behindPiece]

/-- Pieces between commas are told apart when each of them is, and none begins with the bracket that
closes them. -/
theorem joinWith_inj (stops : close.isDigit = false) (comma : close ≠ ',')
    (opens : ∀ a ∈ as, ∀ r t, w a ++ r ≠ close :: t)
    (opens' : ∀ b ∈ bs, ∀ r t, w b ++ r ≠ close :: t)
    (inj : ∀ a ∈ as, ∀ b ∈ bs, ∀ r r', Ends r → Ends r' → w a ++ r = w b ++ r' → a = b ∧ r = r')
    (h : joinWith [','] (as.map w) ++ close :: r = joinWith [','] (bs.map w) ++ close :: r') :
    as = bs ∧ r = r' := by
  have ends : ∀ (cs : List α) (t : List Char), Ends (behindPiece w cs (close :: t)) := by
    intro cs t
    cases cs with
    | nil => exact ends_cons stops t
    | cons c cs => exact ends_cons (by decide) _
  induction as generalizing bs with
  | nil =>
      cases bs with
      | nil => exact ⟨rfl, (List.cons.inj h).2⟩
      | cons b bs =>
          rw [joinWith_behind] at h
          exact absurd h.symm (opens' b List.mem_cons_self _ r)
  | cons a as ih =>
      cases bs with
      | nil =>
          rw [joinWith_behind] at h
          exact absurd h (opens a List.mem_cons_self _ r')
      | cons b bs =>
          rw [joinWith_behind, joinWith_behind] at h
          obtain ⟨rfl, rest⟩ := inj a List.mem_cons_self b List.mem_cons_self _ _ (ends as r)
            (ends bs r') h
          have inj : ∀ a ∈ as, ∀ b ∈ bs, ∀ r r', Ends r → Ends r' → w a ++ r = w b ++ r' →
              a = b ∧ r = r' := fun x hx y hy =>
            inj x (List.mem_cons_of_mem _ hx) y (List.mem_cons_of_mem _ hy)
          -- Behind the first piece both go on with a comma, or both are closed.
          cases as with
          | nil =>
              cases bs with
              | nil => exact ⟨rfl, (List.cons.inj rest).2⟩
              | cons c bs => exact absurd (List.cons.inj rest).1 comma
          | cons c as =>
              cases bs with
              | nil => exact absurd (List.cons.inj rest).1.symm comma
              | cons d bs =>
                  obtain ⟨equal, rfl⟩ := ih (fun x hx => opens x (List.mem_cons_of_mem _ hx))
                    (fun y hy => opens' y (List.mem_cons_of_mem _ hy)) inj (List.cons.inj rest).2
                  exact ⟨by rw [equal], rfl⟩

end Pieces

end Text

/-! ## What is written -/

namespace Value

mutual
/-- A value of the record format without blanks, its keys as they stand. -/
def write : Value → List Char
  | .bool b => (if b then "true" else "false").toList
  | .num (.int i) => Binary64.signed (i < 0) (decimalDigits i.natAbs)
  | .text s => (recordQuoted s).toList
  | .list items => '[' :: joinWith [','] (writeItems items) ++ [']']
  | .map fields => '\x7b' :: joinWith [','] (writeFields fields) ++ ['\x7d']
  | _ => "null".toList
/-- The items of a list, written down. -/
def writeItems : List Value → List (List Char)
  | [] => []
  | v :: vs => write v :: writeItems vs
/-- The fields of a map, written down. -/
def writeFields : List (String × Value) → List (List Char)
  | [] => []
  | (k, v) :: fs => ((recordQuoted k).toList ++ ':' :: write v) :: writeFields fs
end

/-- A field, written down. -/
def writeField (f : String × Value) : List Char :=
  (recordQuoted f.1).toList ++ ':' :: f.2.write

section Writing

variable {a b v : Value} {r r' : List Char}

theorem write_list (items : List Value) :
    (list items).write = '[' :: joinWith [','] (items.map write) ++ [']'] := by
  have each : ∀ vs, writeItems vs = vs.map write := by
    intro vs
    induction vs with
    | nil => rfl
    | cons v vs ih => rw [writeItems, ih, List.map_cons]
  rw [write, each]

theorem write_map (fields : Fields) :
    (map fields).write = '\x7b' :: joinWith [','] (fields.map writeField) ++ ['\x7d'] := by
  have each : ∀ fs, writeFields fs = fs.map writeField := by
    intro fs
    induction fs with
    | nil => rfl
    | cons f fs ih => rw [writeFields, ih, List.map_cons, writeField]
  rw [write, each]

/-- The character that tells the kind of a value. -/
def mark : Value → Char
  | .bool _ => 't'
  | .num _ => '0'
  | .text _ => '"'
  | .list _ => '['
  | .map _ => '\x7b'
  | _ => 'n'

/-- The kind of a value by the character that it begins with. -/
def markOf (c : Char) : Char :=
  if c = 'f' then 't' else if c = '-' ∨ c.isDigit then '0' else c

/-- What is written begins with a character that tells the kind. -/
theorem Simple.write_head (h : v.Simple) : ∃ c cs, v.write = c :: cs ∧ markOf c = v.mark := by
  cases h with
  | null => exact ⟨_, _, rfl, rfl⟩
  | bool b => cases b <;> exact ⟨_, _, rfl, rfl⟩
  | text s =>
      have quoted : (Value.text s).write = '"' :: (s.toList.flatMap recordEscape ++ ['"']) := by
        rw [write, recordQuoted, String.toList_ofList, List.cons_append]
      exact ⟨_, _, quoted, rfl⟩
  | list _ => exact ⟨_, _, write_list _, rfl⟩
  | map _ _ => exact ⟨_, _, write_map _, rfl⟩
  | int i =>
      by_cases negative : i < 0
      · exact ⟨'-', _, by rw [write, Binary64.signed, if_pos (by simpa using negative)], rfl⟩
      · cases digits : decimalDigits i.natAbs with
        | nil => exact absurd digits Nat.toDigits_ne_nil
        | cons d ds =>
            have digit : d.isDigit = true :=
              isDigit_of_mem_decimalDigits (n := i.natAbs) (digits ▸ List.mem_cons_self)
            have plain : (Value.num (.int i)).write = d :: ds := by
              rw [write, Binary64.signed, if_neg (by simpa using negative), digits]
            refine ⟨d, ds, plain, ?_⟩
            have letter : d ≠ 'f' := by
              rintro rfl
              exact absurd digit (by decide)
            rw [markOf, if_neg letter, if_pos (.inr digit)]
            rfl

/-- What begins in the same way is of one kind. -/
theorem Simple.mark_eq (ha : a.Simple) (hb : b.Simple) (h : a.write ++ r = b.write ++ r') :
    a.mark = b.mark := by
  obtain ⟨c, cs, hc, mark⟩ := ha.write_head
  obtain ⟨d, ds, hd, mark'⟩ := hb.write_head
  rw [hc, hd] at h
  rw [← mark, ← mark', (List.cons.inj h).1]

/-- No value begins with a bracket that closes. -/
theorem Simple.opens (h : v.Simple) (t : List Char) : v.write ++ r ≠ ']' :: t := by
  intro equal
  obtain ⟨c, cs, hc, mark⟩ := h.write_head
  rw [hc] at equal
  rw [(List.cons.inj equal).1] at mark
  have bracket : v.mark ≠ ']' := by cases h <;> simp [Value.mark]
  exact bracket mark.symm

theorem writeField_inj {f g : String × Value}
    (inj : ∀ r r', Ends r → Ends r' → f.2.write ++ r = g.2.write ++ r' → f.2 = g.2 ∧ r = r')
    (hr : Ends r) (hr' : Ends r') (h : writeField f ++ r = writeField g ++ r') :
    f = g ∧ r = r' := by
  simp only [writeField, List.append_assoc, List.cons_append] at h
  obtain ⟨key, rest⟩ := recordQuoted_inj h
  obtain ⟨value, rfl⟩ := inj r r' hr hr' (List.cons.inj rest).2
  exact ⟨Prod.ext key value, rfl⟩

theorem writeField_opens (f : String × Value) (t : List Char) :
    writeField f ++ r ≠ '\x7d' :: t := by
  intro equal
  rw [writeField, recordQuoted, String.toList_ofList] at equal
  exact absurd (List.cons.inj equal).1 (by decide)

/-- What is written is read in one way, whatever follows that is no digit. -/
theorem write_inj (ha : a.Simple) (hb : b.Simple) (hr : Ends r) (hr' : Ends r')
    (h : a.write ++ r = b.write ++ r') : a = b ∧ r = r' := by
  have kind := ha.mark_eq hb h
  induction ha generalizing b r r' with
  | null =>
      cases hb with
      | null => exact ⟨rfl, List.append_cancel_left h⟩
      | _ => simp [mark] at kind
  | bool x =>
      cases hb with
      | bool y =>
          cases x <;> cases y <;> simp [write] at h
          · exact ⟨rfl, h⟩
          · exact ⟨rfl, h⟩
      | _ => simp [mark] at kind
  | int i =>
      cases hb with
      | int j =>
          obtain ⟨rfl, rest⟩ := signed_inj hr hr' h
          exact ⟨rfl, rest⟩
      | _ => simp [mark] at kind
  | text s =>
      cases hb with
      | text t =>
          obtain ⟨rfl, rest⟩ := recordQuoted_inj h
          exact ⟨rfl, rest⟩
      | _ => simp [mark] at kind
  | @list items simple ih =>
      cases hb with
      | @list others simple' =>
          rw [write_list, write_list] at h
          simp only [List.cons_append, List.append_assoc, List.nil_append] at h
          have each : ∀ v ∈ items, ∀ w ∈ others, ∀ r r', Ends r → Ends r' →
              v.write ++ r = w.write ++ r' → v = w ∧ r = r' := by
            intro v hv w hw r r' hr hr' h
            exact ih v hv (simple' w hw) hr hr' h ((simple v hv).mark_eq (simple' w hw) h)
          obtain ⟨rfl, rest⟩ := joinWith_inj (by decide) (by decide)
            (fun v hv r t => (simple v hv).opens t) (fun w hw r t => (simple' w hw).opens t) each
            (List.cons.inj h).2
          exact ⟨rfl, rest⟩
      | _ => simp [mark] at kind
  | @map fields _ simple ih =>
      cases hb with
      | @map others _ simple' =>
          rw [write_map, write_map] at h
          simp only [List.cons_append, List.append_assoc, List.nil_append] at h
          have each : ∀ f ∈ fields, ∀ g ∈ others, ∀ r r', Ends r → Ends r' →
              writeField f ++ r = writeField g ++ r' → f = g ∧ r = r' := by
            intro f hf g hg r r' hr hr' h
            refine writeField_inj (fun r r' hr hr' h => ?_) hr hr' h
            exact ih f hf (simple' g hg) hr hr' h ((simple f hf).mark_eq (simple' g hg) h)
          obtain ⟨rfl, rest⟩ := joinWith_inj (by decide) (by decide)
            (fun f _ r t => writeField_opens f t) (fun g _ r t => writeField_opens g t) each
            (List.cons.inj h).2
          exact ⟨rfl, rest⟩
      | _ => simp [mark] at kind

/-! ## The canonical text -/

/-- Texts that are all there. -/
theorem sequence_map_toList {α : Type} {f : α → Except Fault String} {w : α → List Char}
    {as : List α} (each : ∀ a ∈ as, ∀ s, f a = .ok s → s.toList = w a) {ss : List String}
    (h : sequence (as.map f) = .ok ss) : ss.map String.toList = as.map w := by
  induction as generalizing ss with
  | nil =>
      cases h
      rfl
  | cons a as ih =>
      rw [List.map_cons, sequence] at h
      cases first : f a with
      | error e => simp [first, bind, Except.bind] at h
      | ok s =>
          cases rest : sequence (as.map f) with
          | error e => simp [first, rest, bind, Except.bind] at h
          | ok ss' =>
              simp [first, rest, bind, Except.bind, pure, Except.pure] at h
              subst h
              rw [List.map_cons, List.map_cons, each a List.mem_cons_self s first,
                ih (fun b hb => each b (List.mem_cons_of_mem _ hb)) rest]

theorem map_eq_ok_iff {α β : Type} {f : α → β} {x : Except Fault α} {b : β} :
    x.map f = .ok b ↔ ∃ a, x = .ok a ∧ f a = b := by
  cases x <;> simp [Except.map]

/-- The canonical text is the normal form, written down. -/
theorem Simple.canonical_eq (h : v.Simple) {s : String} (hs : v.canonical = .ok s) :
    s.toList = v.normal.write := by
  induction h generalizing s with
  | null =>
      cases hs
      rfl
  | bool b =>
      cases hs
      rfl
  | int i =>
      rw [canonical, Number.intText?] at hs
      split at hs
      next text short =>
        cases hs
        split at short
        · cases short
        · cases short
          exact String.toList_ofList
      next => cases hs
  | text t =>
      cases hs
      rfl
  | @list items _ ih =>
      rw [canonical, canonicalItems_eq_map] at hs
      obtain ⟨ts, hts, rfl⟩ := map_eq_ok_iff.mp hs
      have texts : ts.map String.toList = items.map fun v => v.normal.write :=
        sequence_map_toList (fun v hv s => ih v hv) hts
      simp [normal_list, write_list, joined, texts, Function.comp_def]
  | @map fields _ _ ih =>
      rw [canonical, canonicalFields_eq_map, sortKeys_map] at hs
      obtain ⟨ts, hts, rfl⟩ := map_eq_ok_iff.mp hs
      rw [List.map_map] at hts
      have texts : ts.map String.toList =
          (sortKeys fields).map fun f => writeField (f.1, f.2.normal) := by
        refine sequence_map_toList (fun f hf s hs => ?_) hts
        obtain ⟨t, ht, rfl⟩ := map_eq_ok_iff.mp hs
        simp [writeField, ih f (mem_sortKeys.mp hf) ht]
      simp [normal_map, sortKeys_map, write_map, joined, texts, Function.comp_def]

/-- Values with one normal form have one canonical text. -/
theorem Simple.canonical_normal (h : v.Simple) : v.normal.canonical = v.canonical := by
  induction h with
  | null => rfl
  | bool b => rfl
  | int i => rfl
  | text s => rfl
  | @list items _ ih =>
      have texts : (items.map Value.normal).map canonical = items.map canonical := by
        rw [List.map_map]
        exact List.map_congr_left ih
      rw [normal_list, canonical, canonical, canonicalItems_eq_map, canonicalItems_eq_map, texts]
  | @map fields _ _ ih =>
      have values : (sortKeys fields).map (fun f => (f.1, f.2.normal.canonical)) =
          (sortKeys fields).map fun f => (f.1, f.2.canonical) :=
        List.map_congr_left fun f hf => by rw [ih f (mem_sortKeys.mp hf)]
      -- Keys that are in order already are not moved by sorting again.
      have texts : sortKeys (canonicalFields (sortKeys (fields.map fun f => (f.1, f.2.normal)))) =
          sortKeys (canonicalFields fields) :=
        calc sortKeys (canonicalFields (sortKeys (fields.map fun f => (f.1, f.2.normal))))
            = sortKeys ((sortKeys fields).map fun f => (f.1, f.2.normal.canonical)) := by
              rw [sortKeys_map, canonicalFields_eq_map, List.map_map]
              rfl
          _ = (sortKeys fields).map fun f => (f.1, f.2.canonical) := by
              rw [values, sortKeys_map, sortKeys_of_pairwise (pairwise_sortKeys fields)]
          _ = sortKeys (canonicalFields fields) := by
              rw [canonicalFields_eq_map, sortKeys_map]
      rw [normal_map, canonical, canonical, texts]

mutual
/-- The integers that occur in a value. -/
def integers : Value → List Int
  | .num (.int i) => [i]
  | .list items => integersOfItems items
  | .map fields => integersOfFields fields
  | _ => []
/-- The integers that occur in the items of a list. -/
def integersOfItems : List Value → List Int
  | [] => []
  | v :: vs => integers v ++ integersOfItems vs
/-- The integers that occur in the fields of a map. -/
def integersOfFields : List (String × Value) → List Int
  | [] => []
  | (_, v) :: fs => integers v ++ integersOfFields fs
end

theorem mem_integers_list {items : List Value} {i : Int} :
    i ∈ (list items).integers ↔ ∃ v ∈ items, i ∈ v.integers := by
  rw [integers]
  induction items with
  | nil => simp [integersOfItems]
  | cons v vs ih => simp [integersOfItems, ih]

theorem mem_integers_map {fields : Fields} {i : Int} :
    i ∈ (map fields).integers ↔ ∃ f ∈ fields, i ∈ f.2.integers := by
  rw [integers]
  induction fields with
  | nil => simp [integersOfFields]
  | cons f fs ih => simp [integersOfFields, ih]

/-- An integer with no more digits than a text may have. -/
def Short (i : Int) : Prop :=
  (decimalDigits i.natAbs).length ≤ Number.digitLimit

instance (i : Int) : Decidable (Short i) :=
  inferInstanceAs (Decidable ((decimalDigits i.natAbs).length ≤ Number.digitLimit))

/-- A value of the record format has a canonical text unless an integer in it is too long. -/
theorem Simple.hasCanonical_iff (h : v.Simple) : v.HasCanonical ↔ ∀ i ∈ v.integers, Short i := by
  induction h with
  | null => exact ⟨fun _ => nofun, fun _ => ⟨_, rfl⟩⟩
  | bool b => exact ⟨fun _ => nofun, fun _ => ⟨_, rfl⟩⟩
  | text s => exact ⟨fun _ => nofun, fun _ => ⟨_, rfl⟩⟩
  | int i =>
      simp only [HasCanonical, canonical, Number.intText?, integers, List.mem_singleton, forall_eq,
        Short]
      by_cases long : (decimalDigits i.natAbs).length > Number.digitLimit
      · simp [long]
      · simp [long, Nat.not_lt.mp long]
  | @list items _ ih =>
      rw [hasCanonical_list]
      simp only [mem_integers_list]
      constructor
      · rintro texts i ⟨v, hv, hi⟩
        exact (ih v hv).mp (texts v hv) i hi
      · intro short v hv
        exact (ih v hv).mpr fun i hi => short i ⟨v, hv, hi⟩
  | @map fields _ _ ih =>
      rw [hasCanonical_map]
      simp only [mem_integers_map]
      constructor
      · rintro texts i ⟨f, hf, hi⟩
        exact (ih f hf).mp (texts f hf) i hi
      · intro short f hf
        exact (ih f hf).mpr fun i hi => short i ⟨f, hf, hi⟩

/-- A value has the canonical text of another exactly when they agree up to the order of keys. -/
theorem Simple.canonical_eq_iff (ha : a.Simple) (hb : b.Simple) {s : String}
    (hs : a.canonical = .ok s) : b.canonical = .ok s ↔ a.agrees b = true := by
  rw [← normal_eq_iff ha hb]
  constructor
  · intro ht
    have written : a.normal.write ++ [] = b.normal.write ++ [] := by
      rw [← ha.canonical_eq hs, ← hb.canonical_eq ht]
    exact (write_inj ha.normal hb.normal ends_nil ends_nil written).1
  · intro equal
    rw [← hb.canonical_normal, ← equal, ha.canonical_normal]
    exact hs

/-- Maps with the same keys agree when they agree in every field. -/
theorem agrees_map_iff_field {fields others : Fields} (distinct : (fields.map (·.1)).Nodup)
    (keys : fields.map (·.1) = others.map (·.1)) :
    (map fields).agrees (map others) = true ↔
      ∀ key, ((map fields).field key).agrees ((map others).field key) = true := by
  rw [agrees_map_iff]
  constructor
  · rintro ⟨-, each⟩ key
    cases found : Fields.get? key fields with
    | some v =>
        obtain ⟨w, hw, same⟩ := each _ ((Fields.get?_eq_some_iff distinct).mp found)
        simp only [field, found, hw]
        exact same
    | none =>
        have absent : Fields.get? key others = none := by
          rw [Fields.get?_eq_none_iff, ← keys]
          exact Fields.get?_eq_none_iff.mp found
        simp only [field, found, absent]
        rfl
  · intro each
    refine ⟨by simpa using congrArg List.length keys, fun f hf => ?_⟩
    have same := each f.1
    have found : Fields.get? f.1 fields = some f.2 := (Fields.get?_eq_some_iff distinct).mpr hf
    cases other : Fields.get? f.1 others with
    | some w =>
        simp only [field, found, other] at same
        exact ⟨w, rfl, same⟩
    | none =>
        have key : f.1 ∈ fields.map (·.1) := List.mem_map_of_mem hf
        rw [keys] at key
        exact absurd key (Fields.get?_eq_none_iff.mp other)

end Writing

end Value

/-! ## Lists of configurations -/

namespace Button.Config

open Value

/-- Two configurations agree in every field. -/
def Agrees (c d : Config) : Prop :=
  ∀ key, (c.toValue.field key).agrees (d.toValue.field key) = true

theorem keys_nodup (c : Config) : (c.fields.map (·.1)).Nodup := by
  show (["label", "url", "position", "table_name", "show_as_link", "tooltip", "icon",
    "visibility_expression", "action_script"] : List String).Nodup
  decide

theorem agrees_toValue_iff {c d : Config} : c.toValue.agrees d.toValue = true ↔ c.Agrees d :=
  agrees_map_iff_field c.keys_nodup rfl

theorem agrees_list_toValue_iff {cs ds : List Config} :
    (Value.list (cs.map toValue)).agrees (Value.list (ds.map toValue)) = true ↔
      List.Forall₂ Agrees cs ds := by
  rw [agrees_list_iff, List.forall₂_map_left_iff, List.forall₂_map_right_iff]
  simp only [agrees_toValue_iff]

theorem simple_list_toValue {cs : List Config} (simple : ∀ c ∈ cs, ∀ f ∈ c.fields, f.2.Simple) :
    (Value.list (cs.map toValue)).Simple :=
  .list (List.forall_mem_map.mpr fun c hc => .map c.keys_nodup (simple c hc))

/-- Configurations have one hash when they have one canonical text, unless the digest of two texts
is the same. -/
theorem hash_eq_iff {cs ds : List Config} {s : String}
    (hs : (Value.list (cs.map toValue)).canonical = .ok s)
    (apart : ∀ t, (Value.list (ds.map toValue)).canonical = .ok t →
      Digest.sha256 s = Digest.sha256 t → s = t) :
    hash cs = hash ds ↔ (Value.list (ds.map toValue)).canonical = .ok s := by
  have hashed : hash cs = .ok ("sha256:" ++ Digest.sha256 s) := by
    rw [hash, hashOf, hs]
    rfl
  rw [hashed, hash, hashOf]
  cases ht : (Value.list (ds.map toValue)).canonical with
  | error f => exact iff_of_false (by rintro ⟨⟩) (by rintro ⟨⟩)
  | ok t =>
      constructor
      · intro equal
        have digests : "sha256:" ++ Digest.sha256 s = "sha256:" ++ Digest.sha256 t :=
          Except.ok.inj equal
        rw [apart t ht ((String.append_right_inj _).mp digests)]
      · rintro ⟨⟩
        rfl

end Button.Config

open Button Value

/-- **The canonical text identifies the value.**  A value made of null, truth values, integers,
texts, lists and maps has a canonical text unless an integer in it has more digits than a text may
have, and another such value has the same text exactly when it is the same value up to the order of
keys.  So two lists of configurations with such fields have one canonical text exactly when they
agree in length, order and every field, and then and only then one hash, unless the two texts happen
to have one digest. -/
theorem canonical_identifies :
    (∀ a b : Value, a.Simple → b.Simple →
      ((∃ s, a.canonical = .ok s) ↔ ∀ i ∈ a.integers, Short i) ∧
      ∀ s, a.canonical = .ok s → (b.canonical = .ok s ↔ a.agrees b = true)) ∧
    ∀ cs ds : List Config, (∀ c ∈ cs, ∀ f ∈ c.fields, f.2.Simple) →
      (∀ d ∈ ds, ∀ f ∈ d.fields, f.2.Simple) →
      ∀ s, (Value.list (cs.map Config.toValue)).canonical = .ok s →
        ((Value.list (ds.map Config.toValue)).canonical = .ok s ↔
          List.Forall₂ Config.Agrees cs ds) ∧
        ((∀ t, (Value.list (ds.map Config.toValue)).canonical = .ok t →
            Digest.sha256 s = Digest.sha256 t → s = t) →
          (Config.hash cs = Config.hash ds ↔ List.Forall₂ Config.Agrees cs ds)) := by
  refine ⟨fun a b ha hb => ⟨ha.hasCanonical_iff, fun s hs => ha.canonical_eq_iff hb hs⟩, ?_⟩
  intro cs ds hcs hds s hs
  have texts : (Value.list (ds.map Config.toValue)).canonical = .ok s ↔
      List.Forall₂ Config.Agrees cs ds := by
    rw [← Config.agrees_list_toValue_iff]
    exact (Config.simple_list_toValue hcs).canonical_eq_iff (Config.simple_list_toValue hds) hs
  exact ⟨texts, fun apart => (Config.hash_eq_iff hs apart).trans texts⟩

/-- A map with a list in it. -/
def inOrder : Value :=
  .map [("go", .text "<>"), ("to", .list [.int 1, .bool true])]

/-- The same map with its keys in another order. -/
def reordered : Value :=
  .map [("to", .list [.int 1, .bool true]), ("go", .text "<>")]

/-- A map that has a number for a truth value. -/
def renumbered : Value :=
  .map [("go", .text "<>"), ("to", .list [.int 1, .int 1])]

theorem simple_inOrder : inOrder.Simple ∧ reordered.Simple ∧ renumbered.Simple := by
  have mixed : (Value.list [.int 1, .bool true]).Simple :=
    .list (List.forall_mem_cons.mpr ⟨.int 1, List.forall_mem_singleton.mpr (.bool true)⟩)
  have numbers : (Value.list [.int 1, .int 1]).Simple :=
    .list (List.forall_mem_cons.mpr ⟨.int 1, List.forall_mem_singleton.mpr (.int 1)⟩)
  refine ⟨.map (by decide) ?_, .map (by decide) ?_, .map (by decide) ?_⟩
  · exact List.forall_mem_cons.mpr ⟨.text _, List.forall_mem_singleton.mpr mixed⟩
  · exact List.forall_mem_cons.mpr ⟨mixed, List.forall_mem_singleton.mpr (.text _)⟩
  · exact List.forall_mem_cons.mpr ⟨.text _, List.forall_mem_singleton.mpr numbers⟩

theorem reordered_identified :
    (∃ s, inOrder.canonical = .ok s ∧ reordered.canonical = .ok s ∧ renumbered.canonical ≠ .ok s) ∧
    Config.hash [{ label := .text "Go", icon := inOrder }] =
      Config.hash [{ label := .text "Go", icon := reordered }] := by
  obtain ⟨ordered, swapped, numbered⟩ := simple_inOrder
  obtain ⟨values, lists⟩ := canonical_identifies
  obtain ⟨s, hs⟩ := (values _ _ ordered ordered).1.mpr (by decide)
  refine ⟨⟨s, hs, ?_, fun other => ?_⟩, ?_⟩
  · exact ((values _ _ ordered swapped).2 s hs).mpr (by decide)
  · exact absurd (((values _ _ ordered numbered).2 s hs).mp other) (by decide)
  · have fields : ∀ icon : Value, icon.Simple →
        ∀ c ∈ [{ label := .text "Go", icon : Config }], ∀ f ∈ c.fields, f.2.Simple := by
      intro icon simple c hc f hf
      obtain rfl := List.mem_singleton.mp hc
      simp only [Config.fields, List.mem_cons, List.not_mem_nil, or_false] at hf
      rcases hf with rfl | rfl | rfl | rfl | rfl | rfl | rfl | rfl | rfl
      · exact .text _
      · exact .text _
      · exact .int _
      · exact .text _
      · exact .bool _
      · exact .null
      · exact simple
      · exact .null
      · exact .null
    have agree : List.Forall₂ Config.Agrees [{ label := .text "Go", icon := inOrder }]
        [{ label := .text "Go", icon := reordered }] :=
      Config.agrees_list_toValue_iff.mp (by decide)
    obtain ⟨t, ht⟩ : (Value.list ([{ label := .text "Go", icon := inOrder : Config }].map
        Config.toValue)).HasCanonical := by decide +kernel
    obtain ⟨texts, hashes⟩ := lists _ _ (fields _ ordered) (fields _ swapped) t ht
    refine (hashes fun u hu _ => ?_).mpr agree
    exact Except.ok.inj ((texts.mpr agree).symm.trans hu)

end Toolbar
