/-
# `Toolbar.Proofs.Template.Args` — printed arguments are split where they were joined

The splitter goes over a text with a place: inside quotation marks or outside, behind a backslash,
and how deep in brackets.  What the record format writes leads from a place outside quotation marks
back to that place, whatever stands in its texts, and none of its commas divides two arguments:

    Passes        from a place to another without a comma that divides
    passes_write  the passage over a value, by induction on the value

So the commas between printed arguments are the ones that divide, each piece is trimmed to one
printed value, and the reader of the record format takes it back (`args_round_trip`).
-/
import Toolbar.Proofs.Text.Lines
import Toolbar.Proofs.Value.Reading
import Toolbar.Template.Args

namespace Toolbar

open Text

namespace Value.Reader

variable {v : Value}

/-- What is written ends with no blank either. -/
theorem visible_write_reverse (h : v.Simple) : Visible v.write.reverse := by
  cases h with
  | null => exact ⟨_, _, rfl, rfl⟩
  | bool b => cases b <;> exact ⟨_, _, rfl, rfl⟩
  | text s =>
      refine ⟨'"', ('"' :: s.toList.flatMap recordEscape).reverse, ?_, rfl⟩
      rw [write, recordQuoted, String.toList_ofList, List.reverse_append]
      rfl
  | list _ => exact ⟨']', _, by rw [write_list, List.reverse_append]; rfl, rfl⟩
  | map _ _ => exact ⟨'\x7d', _, by rw [write_map, List.reverse_append]; rfl, rfl⟩
  | int i =>
      obtain ⟨d, ds, digits⟩ : ∃ d ds, (decimalDigits i.natAbs).reverse = d :: ds :=
        List.exists_cons_of_ne_nil (mt List.reverse_eq_nil_iff.mp Nat.toDigits_ne_nil)
      have digit : d.isDigit = true := by
        refine isDigit_of_mem_decimalDigits (n := i.natAbs) (List.mem_reverse.mp ?_)
        rw [digits]
        exact List.mem_cons_self
      have blank := not_blank_of_isDigit digit
      rw [write, Binary64.signed]
      split
      · exact ⟨d, ds ++ ['-'], by rw [List.reverse_cons, digits]; rfl, blank⟩
      · exact ⟨d, ds, digits, blank⟩

end Value.Reader

namespace Template.Args

open Value Value.Reader

/-! ## Splitting -/

theorem splitFrom_ne_nil (p : Place) (piece cs : List Char) : splitFrom p piece cs ≠ [] := by
  induction cs generalizing p piece with
  | nil => exact List.cons_ne_nil _ _
  | cons c cs ih =>
      rw [splitFrom]
      split
      · exact List.cons_ne_nil _ _
      · exact ih _ _

/-- The pieces and the commas between them are the whole text. -/
theorem joinWith_splitFrom (p : Place) (piece cs : List Char) :
    joinWith [','] (splitFrom p piece cs) = piece.reverse ++ cs := by
  induction cs generalizing p piece with
  | nil => simp [splitFrom, joinWith]
  | cons c cs ih =>
      rw [splitFrom]
      split
      next comma =>
        obtain ⟨⟨-, rfl⟩, -⟩ : (p.quote = none ∧ c = ',') ∧ p.depth = 0 := by
          simpa [Place.divides] using comma
        rw [joinWith_cons (splitFrom_ne_nil _ _ _), ih]
        simp
      next =>
        rw [ih]
        simp

namespace Place

/-- From one place to another over characters of which none divides two arguments. -/
inductive Passes : Place → List Char → Place → Prop
  | nil (p : Place) : Passes p [] p
  | cons {p q : Place} {c : Char} {cs : List Char} :
      p.divides c = false → Passes (p.next c) cs q → Passes p (c :: cs) q

variable {p q r : Place} {as bs : List Char}

theorem Passes.append (h : Passes p as q) (h' : Passes q bs r) : Passes p (as ++ bs) r := by
  induction h with
  | nil p => exact h'
  | cons comma _ ih => exact .cons comma (ih h')

/-- Characters that leave the place as it is. -/
theorem passes_of_forall (h : ∀ c ∈ as, p.divides c = false ∧ p.next c = p) : Passes p as p := by
  induction as with
  | nil => exact .nil p
  | cons c cs ih =>
      obtain ⟨⟨comma, stays⟩, rest⟩ := List.forall_mem_cons.mp h
      refine .cons comma ?_
      rw [stays]
      exact ih rest

theorem Passes.pieces {pieces : List (List Char)} (comma : Passes p [','] p)
    (each : ∀ piece ∈ pieces, Passes p piece p) : Passes p (joinWith [','] pieces) p := by
  induction pieces with
  | nil => exact .nil p
  | cons piece pieces ih =>
      obtain ⟨first, rest⟩ := List.forall_mem_cons.mp each
      cases pieces with
      | nil => exact first
      | cons next pieces =>
          rw [joinWith_cons (List.cons_ne_nil _ _)]
          exact (first.append comma).append (ih rest)

/-- What is passed belongs to one piece. -/
theorem Passes.splitFrom (h : Passes p as q) (piece bs : List Char) :
    splitFrom p piece (as ++ bs) = splitFrom q (as.reverse ++ piece) bs := by
  induction h generalizing piece with
  | nil p => rfl
  | cons comma _ ih =>
      rw [List.cons_append, Args.splitFrom, if_neg (by simp [comma]), ih]
      simp

/-! ## Places of what is written -/

/-- Outside quotation marks at some depth of brackets. -/
def outside (d : Int) : Place := { depth := d }

/-- Inside quotation marks at some depth of brackets. -/
def inside (d : Int) : Place := { quote := some '"', depth := d }

theorem passes_recordEscape (d : Int) (c : Char) :
    Passes (inside d) (recordEscape c) (inside d) := by
  have plain : ∀ {c : Char}, c ≠ '"' → c ≠ '\\' →
      (inside d).divides c = false ∧ (inside d).next c = inside d := by
    intro c mark backslash
    simp [inside, divides, next, mark, backslash]
  obtain ⟨e, escape, -⟩ | ⟨small, escape⟩ | ⟨escape, mark, backslash, -⟩ := recordEscape_cases c
  · rw [escape]
    exact .cons rfl (.cons rfl (.nil _))
  · have digits : ∀ n < 0x20, (hexDigits 4 n).all (fun c => c != '"' && c != '\\') = true := by
      decide
    rw [escape]
    refine .cons rfl (.cons rfl (passes_of_forall fun c hc => ?_))
    have unmarked := List.all_eq_true.mp (digits _ small) c hc
    simp only [Bool.and_eq_true, bne_iff_ne] at unmarked
    exact plain unmarked.1 unmarked.2
  · rw [escape]
    exact passes_of_forall (List.forall_mem_singleton.mpr (plain mark backslash))

theorem passes_recordQuoted (d : Int) (s : String) :
    Passes (outside d) (recordQuoted s).toList (outside d) := by
  have escaped : Passes (inside d) (s.toList.flatMap recordEscape) (inside d) := by
    induction s.toList with
    | nil => exact .nil _
    | cons c cs ih => exact (passes_recordEscape d c).append ih
  rw [recordQuoted, String.toList_ofList]
  exact .cons rfl (escaped.append (.cons rfl (.nil _)))

/-- A character that is no quotation mark, bracket or comma. -/
def isPlain (c : Char) : Bool :=
  !(['"', '\'', '[', '\x7b', ']', '\x7d', ','].contains c)

theorem isPlain_of_ne {c : Char} (h : ¬ (c = '"' ∨ c = '\'' ∨ c = '[' ∨ c = '\x7b' ∨ c = ']' ∨
    c = '\x7d' ∨ c = ',')) : isPlain c = true := by
  simpa [isPlain] using h

theorem passes_plain {d : Int} (h : as.all isPlain = true) :
    Passes (outside d) as (outside d) := by
  refine passes_of_forall fun c hc => ?_
  have plain := List.all_eq_true.mp h c hc
  simp [isPlain] at plain
  simp [outside, divides, next, plain]

theorem passes_comma {d : Int} (h : d ≠ 0) : Passes (outside d) [','] (outside d) :=
  .cons (by simp [outside, divides, h]) (.nil _)

/-- Brackets and the pieces in them. -/
theorem Passes.brackets {d : Int} {opening closing : Char} {pieces : List (List Char)}
    (opens : opening = '[' ∨ opening = '\x7b') (closes : closing = ']' ∨ closing = '\x7d')
    (hd : 0 ≤ d) (each : ∀ piece ∈ pieces, Passes (outside (d + 1)) piece (outside (d + 1))) :
    Passes (outside d) (opening :: joinWith [','] pieces ++ [closing]) (outside d) := by
  -- One bracket deeper no comma divides, because the depth is not zero there.
  have inner : Passes (outside (d + 1)) (joinWith [','] pieces) (outside (d + 1)) :=
    .pieces (passes_comma (by omega)) each
  have close : Passes (outside (d + 1)) [closing] (outside d) := by
    have back : (outside (d + 1)).next closing = outside d := by
      obtain rfl | rfl := closes <;> simp [outside, next]
    refine .cons ?_ (back ▸ .nil _)
    obtain rfl | rfl := closes <;> rfl
  have deeper := inner.append close
  obtain rfl | rfl := opens <;> exact .cons rfl deeper

/-- What is written is passed, and behind it the depth is what it was. -/
theorem passes_write {v : Value} (h : v.Simple) {d : Int} (hd : 0 ≤ d) :
    Passes (outside d) v.write (outside d) := by
  induction h generalizing d with
  | null => exact passes_plain (by decide)
  | bool b => cases b <;> exact passes_plain (by decide)
  | int i =>
      refine passes_plain (List.all_eq_true.mpr fun c hc => ?_)
      have sign : c = '-' ∨ c.isDigit = true := by
        rw [write, Binary64.signed] at hc
        split at hc
        · exact (List.mem_cons.mp hc).imp_right isDigit_of_mem_decimalDigits
        · exact .inr (isDigit_of_mem_decimalDigits hc)
      refine isPlain_of_ne ?_
      rintro (rfl | rfl | rfl | rfl | rfl | rfl | rfl) <;> simp at sign
  | text s => exact passes_recordQuoted d s
  | @list items _ ih =>
      rw [write_list]
      refine .brackets (.inl rfl) (.inl rfl) hd ?_
      rw [List.forall_mem_map]
      exact fun v hv => ih v hv (by omega)
  | @map fields _ _ ih =>
      rw [write_map]
      refine .brackets (.inr rfl) (.inr rfl) hd ?_
      rw [List.forall_mem_map]
      intro f hf
      have colon : Passes (outside (d + 1)) [':'] (outside (d + 1)) := passes_plain (by decide)
      exact (passes_recordQuoted _ f.1).append (colon.append (ih f hf (by omega)))

end Place

/-- Pieces that end at the depth where they begin are split at the commas between them. -/
theorem split_joinWith {pieces : List (List Char)} (nonempty : pieces ≠ [])
    (each : ∀ piece ∈ pieces, Place.Passes {} piece {}) :
    split (joinWith [','] pieces) = pieces := by
  rw [split]
  induction pieces with
  | nil => exact absurd rfl nonempty
  | cons piece pieces ih =>
      obtain ⟨first, rest⟩ := List.forall_mem_cons.mp each
      cases pieces with
      | nil =>
          have alone := first.splitFrom [] []
          simpa [joinWith, splitFrom] using alone
      | cons next pieces =>
          rw [joinWith_cons (List.cons_ne_nil _ _), List.append_assoc, first.splitFrom,
            List.singleton_append, splitFrom, if_pos (by decide), ih (List.cons_ne_nil _ _) rest]
          simp

/-! ## Blanks -/

theorem trim_of_blank {before after cs : List Char} (hbefore : ∀ c ∈ before, isBlank c = true)
    (hafter : ∀ c ∈ after, isBlank c = true) (head : Visible cs) (last : Visible cs.reverse) :
    trim (before ++ cs ++ after) = cs := by
  have first : ∀ {cs : List Char} {c : Char}, Visible cs → cs.head? = some c →
      isBlank c = false := by
    rintro _ c ⟨d, cs, rfl, blank⟩ hc
    cases hc
    exact blank
  have ends : ∀ c, cs.head? = some c ∨ cs.getLast? = some c → isBlank c = false := by
    rintro c (hc | hc)
    · exact first head hc
    · exact first last (List.head?_reverse.trans hc)
  exact (stripped_iff.mp ⟨before, after, rfl, hbefore, hafter, ends⟩).symm

/-- What is trimmed away as a whole is blank. -/
theorem blank_of_trim_eq_nil {cs : List Char} (h : trim cs = []) : ∀ c ∈ cs, isBlank c = true := by
  obtain ⟨before, after, rfl, hbefore, hafter, -⟩ := stripped_iff.mpr h.symm
  rw [List.append_nil]
  exact List.forall_mem_append.mpr ⟨hbefore, hafter⟩

/-- Blanks do not divide arguments. -/
theorem Place.passes_blank {cs : List Char} (h : ∀ c ∈ cs, isBlank c = true) :
    Passes (outside 0) cs (outside 0) := by
  refine passes_plain (List.all_eq_true.mpr fun c hc => isPlain_of_ne ?_)
  have blank := h c hc
  rintro (rfl | rfl | rfl | rfl | rfl | rfl | rfl) <;> cases blank

/-- A text with blanks around it. -/
def Padded (t : String) (cs : List Char) : Prop :=
  ∃ before after, (∀ c ∈ before, isBlank c = true) ∧ (∀ c ∈ after, isBlank c = true) ∧
    cs = before ++ t.toList ++ after

section Arguments

variable {v : Value} {t : String} {cs : List Char}

theorem Padded.passes (h : Padded t cs) (simple : v.Simple) (canonical : v.canonical = .ok t) :
    Place.Passes {} cs {} := by
  obtain ⟨before, after, hbefore, hafter, rfl⟩ := h
  have written : Place.Passes (.outside 0) t.toList (.outside 0) := by
    rw [simple.canonical_eq canonical]
    exact Place.passes_write simple.normal (Int.le_refl 0)
  exact ((Place.passes_blank hbefore).append written).append (Place.passes_blank hafter)

theorem Padded.trim (h : Padded t cs) (simple : v.Simple) (canonical : v.canonical = .ok t) :
    trim cs = t.toList := by
  obtain ⟨before, after, hbefore, hafter, rfl⟩ := h
  rw [simple.canonical_eq canonical]
  exact trim_of_blank hbefore hafter (visible_write simple.normal)
    (visible_write_reverse simple.normal)

theorem Padded.value (h : Padded t cs) (simple : v.Simple) (canonical : v.canonical = .ok t) :
    value cs = v.normal := by
  have short : ∀ i ∈ v.normal.integers, Short i :=
    simple.normal.hasCanonical_iff.mp ⟨t, simple.canonical_normal.trans canonical⟩
  have read := read_write simple.normal short
  rw [← simple.canonical_eq canonical] at read
  rw [Args.value, h.trim simple canonical, read]

/-- The canonical text of a value with blanks around it. -/
def Printed (v : Value) (cs : List Char) : Prop :=
  ∃ t, v.canonical = .ok t ∧ Padded t cs

/-- What is printed is more than blanks. -/
theorem Printed.trim_ne_nil (h : Printed v cs) (simple : v.Simple) (pieces : List (List Char)) :
    trim (joinWith [','] (cs :: pieces)) ≠ [] := by
  obtain ⟨t, canonical, before, after, -, -, rfl⟩ := h
  obtain ⟨c, rest, written, visible⟩ := visible_write simple.normal
  have mem : c ∈ joinWith [','] ((before ++ t.toList ++ after) :: pieces) := by
    have first := joinWith_behind (w := id) (before ++ t.toList ++ after) pieces []
    rw [List.map_id, List.append_nil] at first
    rw [first, simple.canonical_eq canonical, written]
    simp
  intro empty
  have blank := blank_of_trim_eq_nil empty c mem
  rw [visible] at blank
  cases blank

/-- Printed values between commas are read as their normal forms. -/
theorem values_joinWith {vs : List Value} {pieces : List (List Char)} (nonempty : vs ≠ [])
    (simple : ∀ v ∈ vs, v.Simple) (printed : List.Forall₂ Printed vs pieces) :
    values (joinWith [','] pieces) = vs.map normal := by
  have each : (∀ piece ∈ pieces, Place.Passes {} piece {}) ∧
      pieces.map value = vs.map normal := by
    clear nonempty
    induction printed with
    | nil => exact ⟨nofun, rfl⟩
    | @cons v piece vs pieces first _ ih =>
        obtain ⟨hv, hvs⟩ := List.forall_mem_cons.mp simple
        obtain ⟨t, canonical, padded⟩ := first
        obtain ⟨passes, read⟩ := ih hvs
        refine ⟨List.forall_mem_cons.mpr ⟨padded.passes hv canonical, passes⟩, ?_⟩
        rw [List.map_cons, List.map_cons, padded.value hv canonical, read]
  cases printed with
  | nil => exact absurd rfl nonempty
  | @cons v piece vs pieces first _ =>
      have visible := first.trim_ne_nil (simple v List.mem_cons_self) pieces
      rw [values, if_neg (by simpa using visible), split_joinWith (List.cons_ne_nil _ _) each.1,
        each.2]

/-- Values that have canonical texts. -/
theorem exists_texts {vs : List Value} (texts : ∀ v ∈ vs, v.HasCanonical) :
    ∃ ts : List String, vs.map canonical = ts.map .ok := by
  induction vs with
  | nil => exact ⟨[], rfl⟩
  | cons v vs ih =>
      obtain ⟨⟨t, ht⟩, rest⟩ := List.forall_mem_cons.mp texts
      obtain ⟨ts, hts⟩ := ih rest
      exact ⟨t :: ts, by rw [List.map_cons, List.map_cons, ht, hts]⟩

theorem printed_of_padded {vs : List Value} {ts : List String} {pieces : List (List Char)}
    (texts : vs.map canonical = ts.map .ok) (padded : List.Forall₂ Padded ts pieces) :
    List.Forall₂ Printed vs pieces := by
  induction padded generalizing vs with
  | nil =>
      obtain rfl := List.map_eq_nil_iff.mp texts
      exact .nil
  | cons first _ ih =>
      obtain ⟨v, vs, rfl, text, rest⟩ := List.map_eq_cons_iff.mp texts
      exact .cons ⟨_, text, first⟩ (ih rest)

end Arguments

/-- **What is printed as arguments is read back.**  Values of the record format whose integers are
not too long have canonical texts; these between commas, with any blanks around them, are read as
the values themselves up to the order of keys.  And splitting loses nothing: the pieces of any text
and the commas between them are the text. -/
theorem args_round_trip :
    (∀ vs : List Value, vs ≠ [] → (∀ v ∈ vs, v.Simple ∧ ∀ i ∈ v.integers, Short i) →
      ∃ ts : List String, vs.map canonical = ts.map .ok ∧
        ∀ pieces, List.Forall₂ Padded ts pieces →
          List.Forall₂ (fun v w => v.agrees w = true) vs (values (joinWith [','] pieces))) ∧
    ∀ cs, joinWith [','] (split cs) = cs := by
  refine ⟨fun vs nonempty args => ?_, fun cs => joinWith_splitFrom {} [] cs⟩
  have texts : ∀ v ∈ vs, v.HasCanonical := fun v hv =>
    (args v hv).1.hasCanonical_iff.mpr (args v hv).2
  obtain ⟨ts, hts⟩ := exists_texts texts
  refine ⟨ts, hts, fun pieces padded => ?_⟩
  rw [values_joinWith nonempty (fun v hv => (args v hv).1) (printed_of_padded hts padded),
    List.forall₂_map_right_iff, List.forall₂_same]
  intro v hv
  obtain ⟨t, ht⟩ := texts v hv
  have simple := (args v hv).1
  exact (simple.canonical_eq_iff simple.normal ht).mp (simple.canonical_normal.trans ht)

/-- A text with quotation marks, a comma and a bracket in it, and a map whose keys are not in
order. -/
def nestedArgs : List Value :=
  [.text "a, \"[\\", .map [("to", .list [.int (-3), .null]), ("at", .bool true)]]

theorem nestedArgs_read :
    ∃ ts : List String, nestedArgs.map canonical = ts.map .ok ∧
      ∀ pieces, List.Forall₂ Padded ts pieces →
        List.Forall₂ (fun v w => v.agrees w = true) nestedArgs
          (values (joinWith [','] pieces)) := by
  refine args_round_trip.1 nestedArgs (List.cons_ne_nil _ _) ?_
  have inner : (Value.list [.int (-3), .null]).Simple :=
    .list (List.forall_mem_cons.mpr ⟨.int _, List.forall_mem_singleton.mpr .null⟩)
  have outer : (Value.map [("to", .list [.int (-3), .null]), ("at", .bool true)]).Simple :=
    .map (by decide) (List.forall_mem_cons.mpr ⟨inner, List.forall_mem_singleton.mpr (.bool _)⟩)
  exact List.forall_mem_cons.mpr
    ⟨⟨.text _, nofun⟩, List.forall_mem_singleton.mpr ⟨outer, by decide⟩⟩

/-- The comma in the list and the one in quotation marks divide nothing. -/
example : split " [1, 2] ,\"a,b\"".toList = [" [1, 2] ".toList, "\"a,b\"".toList] := by
  decide

end Template.Args

end Toolbar
