/-
# `Toolbar.Proofs.Value.Worded` — what is read has a text

The one value without a text is an integer with too many digits.  The reader of the record format
refuses such integers, and what it reads of other kinds are texts, doubles, words and the lists and
maps of what it has read; so all that it reads has a text (`worded_of_read`).  The proof goes over
the fuel of the reader, with one statement for each of its three functions.

    Worded    a value has a text among the members of a list or map
-/
import Toolbar.Proofs.Expr.Numeral
import Toolbar.Proofs.Method.Results
import Toolbar.Value.Reader

namespace Toolbar

open Text

/-! ## Digits -/

namespace Number

theorem digitsValue_concat (ds : List Char) (d : Char) :
    digitsValue (ds ++ [d]) = 10 * digitsValue ds + (digitValue? d).getD 0 := by
  rw [digitsValue, List.foldl_append]
  rfl

/-- A row of digits denotes a number with at most so many digits. -/
theorem digitsValue_lt (ds : List Char) : digitsValue ds < 10 ^ ds.length := by
  induction ds using List.reverseRecOn with
  | nil => exact Nat.one_pos
  | append_singleton ds d ih =>
      have digit : (digitValue? d).getD 0 < 10 := by
        cases h : digitValue? d with
        | none => exact Nat.succ_pos 9
        | some n => exact digitValue?_lt h
      rw [digitsValue_concat, List.length_append, List.length_singleton, Nat.pow_succ]
      omega

theorem intText?_of_integerOf {negative : Bool} {ds : List Char} {i : Int}
    (h : integerOf negative ds = .ok i) : (intText? i).isSome = true := by
  unfold integerOf at h
  split at h
  next => cases h
  next short =>
    have small : digitsValue ds < 10 ^ digitLimit :=
      (digitsValue_lt ds).trans_le (Nat.pow_le_pow_right (by decide) (Nat.le_of_not_lt short))
    cases h
    refine intText?_isSome_iff.mpr ?_
    split <;> omega

end Number

/-! ## Fields -/

namespace Fields

theorem mem_set {f : String × Value} {key : String} {v : Value} {fields : Fields}
    (h : f ∈ fields.set key v) : f = (key, v) ∨ f ∈ fields := by
  induction fields with
  | nil => exact .inl (List.mem_singleton.mp h)
  | cons g fields ih =>
      obtain ⟨k, w⟩ := g
      rw [set] at h
      split at h
      next =>
        rcases List.mem_cons.mp h with here | later
        · exact .inl here
        · exact .inr (List.mem_cons_of_mem _ later)
      next =>
        rcases List.mem_cons.mp h with here | later
        · exact .inr (here ▸ List.mem_cons_self)
        · exact (ih later).imp_right (List.mem_cons_of_mem _)

theorem mem_update {f : String × Value} {fields changes : Fields}
    (h : f ∈ fields.update changes) : f ∈ changes ∨ f ∈ fields := by
  induction changes generalizing fields with
  | nil => exact .inr h
  | cons change changes ih =>
      obtain ⟨k, v⟩ := change
      have first : fields.update ((k, v) :: changes) = (fields.set k v).update changes := rfl
      rw [first] at h
      rcases ih h with later | before
      · exact .inl (List.mem_cons_of_mem _ later)
      · rcases mem_set before with here | before
        · exact .inl (here ▸ List.mem_cons_self)
        · exact .inr before

/-- Every field that is made of pairs is one of them. -/
theorem mem_ofPairs {f : String × Value} {pairs : List (String × Value)}
    (h : f ∈ ofPairs pairs) : f ∈ pairs := by
  rcases mem_update h with given | before
  · exact given
  · cases before

end Fields

namespace Value

/-! ## Texts -/

/-- A value has a text among the members of a list or map. -/
def Worded (v : Value) : Prop :=
  ∃ t, v.literal? = some t

theorem worded_int {i : Int} (h : (Number.intText? i).isSome = true) : (Value.int i).Worded :=
  Option.isSome_iff_exists.mp h

theorem worded_list {items : List Value} (h : ∀ v ∈ items, v.Worded) :
    (Value.list items).Worded := by
  have texts : ∃ ts, literalItems? items = some ts := by
    induction items with
    | nil => exact ⟨[], rfl⟩
    | cons v items ih =>
        obtain ⟨t, ht⟩ := h v List.mem_cons_self
        obtain ⟨ts, hts⟩ := ih (fun w hw => h w (List.mem_cons_of_mem v hw))
        exact ⟨t :: ts, by rw [literalItems?, ht, hts]; rfl⟩
  obtain ⟨ts, hts⟩ := texts
  exact ⟨_, by rw [literal?, hts]; rfl⟩

theorem worded_map {fields : Fields} (h : ∀ f ∈ fields, f.2.Worded) :
    (Value.map fields).Worded := by
  have texts : ∃ ts, literalFields? fields = some ts := by
    induction fields with
    | nil => exact ⟨[], rfl⟩
    | cons f fields ih =>
        obtain ⟨k, v⟩ := f
        obtain ⟨t, ht⟩ := h (k, v) List.mem_cons_self
        obtain ⟨ts, hts⟩ := ih (fun g hg => h g (List.mem_cons_of_mem _ hg))
        exact ⟨(quoted k ++ ": " ++ t) :: ts, by rw [literalFields?, ht, hts]; rfl⟩
  obtain ⟨ts, hts⟩ := texts
  exact ⟨_, by rw [literal?, hts]; rfl⟩

theorem worded_null : Value.null.Worded :=
  ⟨"None", rfl⟩

/-- The fields of a value with a text have texts. -/
theorem Worded.field {v : Value} (h : v.Worded) (key : String) : (v.field key).Worded := by
  cases v with
  | map fields =>
      obtain ⟨t, ht⟩ := h
      obtain ⟨ts, hts, -⟩ := Option.map_eq_some_iff.mp ht
      clear ht
      induction fields generalizing ts with
      | nil => exact worded_null
      | cons f fields ih =>
          obtain ⟨k, w⟩ := f
          simp only [literalFields?, Option.bind_eq_bind, Option.bind_eq_some_iff] at hts
          obtain ⟨t, ht, rest, hrest, -⟩ := hts
          show ((if k == key then some w else Fields.get? key fields).getD .null).Worded
          split
          · exact ⟨t, ht⟩
          · exact ih rest hrest
  | _ => exact worded_null

theorem Worded.plainText {v : Value} (h : v.Worded) : ∃ t, v.plainText = .ok t := by
  obtain ⟨t, ht⟩ := h
  have text : ∃ t, v.plainText? = some t := by
    cases v with
    | text s => exact ⟨s, rfl⟩
    | date d => exact ⟨d.display, rfl⟩
    | stamp t => exact ⟨t.plainText, rfl⟩
    | _ => exact ⟨t, ht⟩
  obtain ⟨t, ht⟩ := text
  exact ⟨t, by rw [Value.plainText, ht]⟩

/-! ## Reading -/

namespace Reader

theorem mem_of_word? {cs rest : List Char} {ws : List (String × Value)} {v : Value}
    (h : word? cs ws = some (v, rest)) : ∃ w, (w, v) ∈ ws := by
  induction ws with
  | nil => cases h
  | cons entry ws ih =>
      obtain ⟨w, u⟩ := entry
      rw [word?] at h
      split at h
      next =>
        cases h
        exact ⟨w, List.mem_cons_self⟩
      next =>
        obtain ⟨w', hw'⟩ := ih h
        exact ⟨w', List.mem_cons_of_mem _ hw'⟩

theorem worded_of_mem_words : ∀ entry ∈ words, entry.2.Worded := by
  intro entry h
  simp only [words, List.mem_cons, List.not_mem_nil, or_false] at h
  rcases h with rfl | rfl | rfl | rfl | rfl | rfl
  all_goals exact ⟨_, rfl⟩

theorem worded_of_number {negative : Bool} {cs rest : List Char} {n : Number}
    (h : number negative cs = .ok (n, rest)) : (Value.num n).Worded := by
  unfold number at h
  split at h
  next => cases h
  next ds rest' _ =>
    dsimp only at h
    split at h
    next =>
      split at h
      next i hi =>
        cases h
        exact worded_int (Number.intText?_of_integerOf hi)
      next => cases h
    next =>
      cases h
      exact ⟨_, rfl⟩

theorem worded_of_atom {cs rest : List Char} {v : Value} (h : atom cs = .ok (v, rest)) :
    v.Worded := by
  unfold atom at h
  split at h
  next r hr =>
    cases h
    obtain ⟨w, hw⟩ := mem_of_word? hr
    exact worded_of_mem_words _ hw
  next =>
    dsimp only at h
    split at h
    next =>
      obtain ⟨⟨n, rest'⟩, hn, hv⟩ := bind_eq_ok.mp h
      cases hv
      exact worded_of_number hn
    next =>
      obtain ⟨⟨n, rest'⟩, hn, hv⟩ := bind_eq_ok.mp h
      cases hv
      exact worded_of_number hn

/-- What the three functions of the reader give with some fuel has texts. -/
structure AllWorded (fuel : Nat) : Prop where
  value : ∀ {cs rest v}, valueFrom fuel cs = .ok (v, rest) → v.Worded
  items : ∀ {cs rest vs}, itemsFrom fuel cs = .ok (vs, rest) → ∀ v ∈ vs, v.Worded
  fields : ∀ {cs rest fs}, fieldsFrom fuel cs = .ok (fs, rest) → ∀ f ∈ fs, f.2.Worded

theorem allWorded (fuel : Nat) : AllWorded fuel := by
  induction fuel with
  | zero =>
      constructor
      · intro cs rest v h
        cases h
      · intro cs rest vs h
        cases h
      · intro cs rest fs h
        cases h
  | succ fuel ih =>
      constructor
      case value =>
        intro cs rest v h
        unfold valueFrom at h
        split at h
        next =>
          split at h
          next =>
            cases h
            exact ⟨_, rfl⟩
          next => cases h
        next =>
          split at h
          next =>
            cases h
            exact ⟨_, rfl⟩
          next =>
            obtain ⟨⟨items, rest'⟩, hitems, hv⟩ := bind_eq_ok.mp h
            cases hv
            exact worded_list (ih.items hitems)
        next =>
          split at h
          next =>
            cases h
            exact ⟨_, rfl⟩
          next =>
            obtain ⟨⟨fields, rest'⟩, hfields, hv⟩ := bind_eq_ok.mp h
            cases hv
            exact worded_map (fun f hf => ih.fields hfields f (Fields.mem_ofPairs hf))
        next => exact worded_of_atom h
      case items =>
        intro cs rest vs h
        rw [itemsFrom] at h
        obtain ⟨⟨v, rest'⟩, hv, h⟩ := bind_eq_ok.mp h
        have first := ih.value hv
        dsimp only at h
        split at h
        next =>
          cases h
          intro w hw
          rw [List.mem_singleton.mp hw]
          exact first
        next =>
          obtain ⟨⟨more, rest''⟩, hmore, hvs⟩ := bind_eq_ok.mp h
          cases hvs
          exact List.forall_mem_cons.mpr ⟨first, ih.items hmore⟩
        next => cases h
      case fields =>
        intro cs rest fs h
        unfold fieldsFrom at h
        split at h
        next =>
          split at h
          next => cases h
          next key _ _ =>
            split at h
            next =>
              obtain ⟨⟨v, rest'⟩, hv, h⟩ := bind_eq_ok.mp h
              have first : (key, v).2.Worded := ih.value hv
              dsimp only at h
              split at h
              next =>
                cases h
                intro f hf
                rw [List.mem_singleton.mp hf]
                exact first
              next =>
                obtain ⟨⟨more, rest''⟩, hmore, hfs⟩ := bind_eq_ok.mp h
                cases hfs
                exact List.forall_mem_cons.mpr ⟨first, ih.fields hmore⟩
              next => cases h
            next => cases h
        next => cases h

/-- What is read has a text. -/
theorem worded_of_read {s : String} {v : Value} (h : read s = .ok v) : v.Worded := by
  obtain ⟨⟨w, rest⟩, hw, h⟩ := bind_eq_ok.mp h
  dsimp only at h
  split at h
  next =>
    cases h
    exact (allWorded _).value hw
  next => cases h

end Reader

end Value

end Toolbar
