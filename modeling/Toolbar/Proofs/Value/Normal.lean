/-
# `Toolbar.Proofs.Value.Normal` — values up to the order of their keys

The values of the record format are null, truth values, integers, texts, and lists and maps of such.
Two of them are the same value when they differ at most in the order in which maps have their keys.
Each has a normal form, in which the keys of every map are in order:

    agrees     the same value, field by field and item by item
    normal     the value with the keys of its maps in order, at every depth

Values agree exactly when they have one normal form (`normal_eq_iff`), because fields with distinct
keys are determined by their order (`sortKeys_eq_iff`).
-/
import Mathlib.Data.List.Nodup
import Mathlib.Data.List.Perm.Subperm
import Toolbar.Proofs.Button.Hash

namespace Toolbar

namespace Value

/-! ## Pairs in the order of their keys -/

section Sorting

variable {α β : Type} {pairs others : List (String × α)}

theorem perm_putKey (pair : String × α) (pairs : List (String × α)) :
    (putKey pair pairs).Perm (pair :: pairs) := by
  induction pairs with
  | nil => exact .refl _
  | cons p ps ih =>
      rw [putKey]
      split
      · exact .refl _
      · exact (ih.cons p).trans (.swap pair p ps)

theorem perm_sortKeys (pairs : List (String × α)) : (sortKeys pairs).Perm pairs := by
  induction pairs with
  | nil => exact .refl _
  | cons p ps ih => exact (perm_putKey p (sortKeys ps)).trans (ih.cons p)

theorem pairwise_putKey {pair : String × α} (sorted : pairs.Pairwise (·.1 ≤ ·.1)) :
    (putKey pair pairs).Pairwise (·.1 ≤ ·.1) := by
  induction pairs with
  | nil => exact List.pairwise_singleton _ _
  | cons p ps ih =>
      obtain ⟨below, rest⟩ := List.pairwise_cons.mp sorted
      rw [putKey]
      split
      next le =>
        refine List.pairwise_cons.mpr ⟨fun q hq => ?_, sorted⟩
        obtain rfl | hq := List.mem_cons.mp hq
        · exact le
        · exact String.le_trans le (below q hq)
      next not_le =>
        refine List.pairwise_cons.mpr ⟨fun q hq => ?_, ih rest⟩
        obtain rfl | hq := mem_putKey.mp hq
        · exact (String.le_total _ _).resolve_left not_le
        · exact below q hq

theorem pairwise_sortKeys (pairs : List (String × α)) :
    (sortKeys pairs).Pairwise (·.1 ≤ ·.1) := by
  induction pairs with
  | nil => exact .nil
  | cons p ps ih => exact pairwise_putKey ih

/-- Pairs that are in order stay as they are. -/
theorem sortKeys_of_pairwise (sorted : pairs.Pairwise (·.1 ≤ ·.1)) : sortKeys pairs = pairs := by
  induction pairs with
  | nil => rfl
  | cons p ps ih =>
      obtain ⟨below, rest⟩ := List.pairwise_cons.mp sorted
      have tail : sortKeys (p :: ps) = putKey p ps := by
        rw [sortKeys, List.foldr_cons, ← sortKeys, ih rest]
      rw [tail]
      cases ps with
      | nil => rfl
      | cons q qs => exact if_pos (below q List.mem_cons_self)

/-- The order of pairs is a matter of their keys alone. -/
theorem sortKeys_map (f : α → β) (pairs : List (String × α)) :
    sortKeys (pairs.map fun p => (p.1, f p.2)) = (sortKeys pairs).map fun p => (p.1, f p.2) := by
  have put : ∀ (p : String × α) (ps : List (String × α)),
      putKey (p.1, f p.2) (ps.map fun p => (p.1, f p.2)) =
        (putKey p ps).map fun p => (p.1, f p.2) := by
    intro p ps
    induction ps with
    | nil => rfl
    | cons q qs ih =>
        rw [List.map_cons, putKey, putKey]
        split
        · rfl
        · rw [ih, List.map_cons]
  induction pairs with
  | nil => rfl
  | cons p ps ih =>
      rw [List.map_cons, sortKeys, List.foldr_cons, ← sortKeys, ih, put]
      rfl

theorem eq_of_key (distinct : (pairs.map (·.1)).Nodup) {p q : String × α} (hp : p ∈ pairs)
    (hq : q ∈ pairs) (key : p.1 = q.1) : p = q :=
  List.inj_on_of_nodup_map distinct hp hq key

/-- Pairs with distinct keys have one order. -/
theorem sortKeys_eq_iff (distinct : (pairs.map (·.1)).Nodup) :
    sortKeys pairs = sortKeys others ↔ pairs.Perm others := by
  constructor
  · intro equal
    exact (perm_sortKeys pairs).symm.trans (equal ▸ perm_sortKeys others)
  · intro perm
    have sorted : (sortKeys pairs).Perm (sortKeys others) :=
      (perm_sortKeys pairs).trans (perm.trans (perm_sortKeys others).symm)
    have determined : ∀ p q, p ∈ sortKeys pairs → q ∈ sortKeys others → p.1 ≤ q.1 → q.1 ≤ p.1 →
        p = q := by
      intro p q hp hq le ge
      have hp : p ∈ pairs := mem_sortKeys.mp hp
      have hq : q ∈ pairs := perm.mem_iff.mpr (mem_sortKeys.mp hq)
      exact eq_of_key distinct hp hq (String.le_antisymm le ge)
    exact sorted.eq_of_pairwise determined (pairwise_sortKeys pairs) (pairwise_sortKeys others)

end Sorting

end Value

namespace Fields

variable {fields : Fields} {key : String} {v : Value}

/-- Where keys are distinct, a field is found under its key. -/
theorem get?_eq_some_iff (distinct : (fields.map (·.1)).Nodup) :
    fields.get? key = some v ↔ (key, v) ∈ fields := by
  induction fields with
  | nil => exact ⟨nofun, nofun⟩
  | cons f fs ih =>
      obtain ⟨k, w⟩ := f
      obtain ⟨fresh, distinct⟩ := List.nodup_cons.mp distinct
      rw [get?, List.mem_cons]
      by_cases hk : k = key
      · subst hk
        have absent : (k, v) ∉ fs := fun hmem => fresh (List.mem_map_of_mem (f := (·.1)) hmem)
        simp [absent, eq_comm]
      · have other : (key, v) ≠ (k, w) := fun h => hk (Prod.mk.inj h).1.symm
        rw [if_neg (by simpa using hk), ih distinct]
        exact ⟨.inr, fun h => h.resolve_left other⟩

theorem get?_eq_none_iff : fields.get? key = none ↔ key ∉ fields.map (·.1) := by
  induction fields with
  | nil => exact ⟨fun _ => List.not_mem_nil, fun _ => rfl⟩
  | cons f fs ih =>
      obtain ⟨k, w⟩ := f
      rw [get?, List.map_cons, List.mem_cons, not_or, ← ih]
      by_cases hk : k = key
      · simp [hk]
      · simp [hk, Ne.symm hk]

end Fields

namespace Value

/-! ## Values of the record format -/

/-- Null, truth values, integers and texts, and lists and maps of such; the keys of a map are
distinct. -/
inductive Simple : Value → Prop
  | null : Simple .null
  | bool (b : Bool) : Simple (.bool b)
  | int (i : Int) : Simple (.num (.int i))
  | text (s : String) : Simple (.text s)
  | list {items : List Value} : (∀ v ∈ items, Simple v) → Simple (.list items)
  | map {fields : Fields} : (fields.map (·.1)).Nodup → (∀ f ∈ fields, Simple f.2) →
      Simple (.map fields)

mutual
/-- Whether two values are the same up to the order of keys.  Truth values are no numbers. -/
def agrees : Value → Value → Bool
  | .null, .null => true
  | .bool a, .bool b => a == b
  | .num (.int i), .num (.int j) => i == j
  | .text s, .text t => s == t
  | .list as, .list bs => itemsAgree as bs
  | .map as, .map bs => as.length == bs.length && fieldsAgree as bs
  | _, _ => false
/-- Two lists agree item by item. -/
def itemsAgree : List Value → List Value → Bool
  | [], [] => true
  | a :: as, b :: bs => agrees a b && itemsAgree as bs
  | _, _ => false
/-- Every field of the first map agrees with the field of its key in the second. -/
def fieldsAgree : List (String × Value) → List (String × Value) → Bool
  | [], _ => true
  | (k, a) :: as, bs =>
      (match Fields.get? k bs with
        | some b => agrees a b
        | none => false) && fieldsAgree as bs
end

mutual
/-- A value with the keys of its maps in order. -/
def normal : Value → Value
  | .list items => .list (normalItems items)
  | .map fields => .map (sortKeys (normalFields fields))
  | v => v
/-- The items of a list in their normal form. -/
def normalItems : List Value → List Value
  | [] => []
  | v :: vs => normal v :: normalItems vs
/-- The fields of a map with their values in normal form. -/
def normalFields : List (String × Value) → List (String × Value)
  | [] => []
  | (k, v) :: fs => (k, normal v) :: normalFields fs
end

section Forms

variable {a b : Value} {as bs : List Value} {fields others : Fields}

theorem normalItems_eq_map (items : List Value) : normalItems items = items.map normal := by
  induction items with
  | nil => rfl
  | cons v vs ih => rw [normalItems, ih, List.map_cons]

theorem normalFields_eq_map (fields : Fields) :
    normalFields fields = fields.map fun f => (f.1, f.2.normal) := by
  induction fields with
  | nil => rfl
  | cons f fs ih => rw [normalFields, ih, List.map_cons]

@[simp] theorem normal_list (items : List Value) :
    (list items).normal = list (items.map normal) := by
  rw [normal, normalItems_eq_map]

@[simp] theorem normal_map (fields : Fields) :
    (map fields).normal = map (sortKeys (fields.map fun f => (f.1, f.2.normal))) := by
  rw [normal, normalFields_eq_map]

theorem agrees_list_iff : (list as).agrees (list bs) = true ↔
    List.Forall₂ (fun a b => a.agrees b = true) as bs := by
  rw [agrees]
  induction as generalizing bs with
  | nil => cases bs <;> simp [itemsAgree]
  | cons a as ih => cases bs <;> simp [itemsAgree, ih]

theorem agrees_map_iff : (map fields).agrees (map others) = true ↔
    fields.length = others.length ∧
      ∀ f ∈ fields, ∃ b, Fields.get? f.1 others = some b ∧ f.2.agrees b = true := by
  have each : fieldsAgree fields others = true ↔
      ∀ f ∈ fields, ∃ b, Fields.get? f.1 others = some b ∧ f.2.agrees b = true := by
    induction fields with
    | nil => exact ⟨fun _ => nofun, fun _ => rfl⟩
    | cons f fs ih =>
        obtain ⟨k, a⟩ := f
        rw [fieldsAgree, Bool.and_eq_true_iff, ih, List.forall_mem_cons]
        cases Fields.get? k others <;> simp
  rw [agrees, Bool.and_eq_true_iff, each, beq_iff_eq]

/-- The normal form of a value of the record format is one. -/
theorem Simple.normal (h : a.Simple) : a.normal.Simple := by
  induction h with
  | null => exact .null
  | bool b => exact .bool b
  | int i => exact .int i
  | text s => exact .text s
  | @list items _ ih =>
      rw [normal_list]
      exact .list (List.forall_mem_map.mpr ih)
  | @map fields distinct _ ih =>
      rw [normal_map]
      refine .map ?_ fun f hf => ?_
      · have keys := (perm_sortKeys (fields.map fun f => (f.1, f.2.normal))).map (·.1)
        rw [keys.nodup_iff, List.map_map]
        exact distinct
      · obtain ⟨g, hg, rfl⟩ := List.mem_map.mp (mem_sortKeys.mp hf)
        exact ih g hg

/-- Fields with distinct keys have one order with the others when these have as many, and the same
value under each key. -/
theorem sorted_fields_eq_iff (distinct : (fields.map (·.1)).Nodup)
    (distinct' : (others.map (·.1)).Nodup) :
    sortKeys (fields.map fun f => (f.1, f.2.normal)) =
        sortKeys (others.map fun f => (f.1, f.2.normal)) ↔
      fields.length = others.length ∧
        ∀ f ∈ fields, ∃ b, Fields.get? f.1 others = some b ∧ f.2.normal = b.normal := by
  have keys : ∀ fs : Fields, (fs.map fun f => (f.1, f.2.normal)).map (·.1) = fs.map (·.1) :=
    fun fs => List.map_map
  have found : ∀ f : String × Value, (f.1, f.2.normal) ∈ others.map (fun f => (f.1, f.2.normal)) ↔
      ∃ b, Fields.get? f.1 others = some b ∧ f.2.normal = b.normal := by
    intro f
    constructor
    · intro hmem
      obtain ⟨⟨k, b⟩, hg, equal⟩ := List.mem_map.mp hmem
      obtain ⟨rfl, same⟩ := Prod.mk.inj equal
      exact ⟨b, (Fields.get?_eq_some_iff distinct').mpr hg, same.symm⟩
    · rintro ⟨b, hget, same⟩
      rw [same]
      exact List.mem_map.mpr ⟨(f.1, b), (Fields.get?_eq_some_iff distinct').mp hget, rfl⟩
  rw [sortKeys_eq_iff (by rw [keys]; exact distinct)]
  constructor
  · intro perm
    refine ⟨by simpa using perm.length_eq, fun f hf => (found f).mp ?_⟩
    exact perm.mem_iff.mp (List.mem_map.mpr ⟨f, hf, rfl⟩)
  · rintro ⟨length, each⟩
    -- Distinct fields that are all among as many others are these others in some order.
    have nodup : (fields.map fun f => (f.1, f.2.normal)).Nodup := by
      refine List.Nodup.of_map (·.1) ?_
      rw [keys]
      exact distinct
    have subset : (fields.map fun f => (f.1, f.2.normal)) ⊆
        others.map fun f => (f.1, f.2.normal) := by
      intro g hg
      obtain ⟨f, hf, rfl⟩ := List.mem_map.mp hg
      exact (found f).mpr (each f hf)
    refine (List.Nodup.subperm nodup subset).perm_of_length_le ?_
    rw [List.length_map, List.length_map]
    exact Nat.le_of_eq length.symm

/-- Values have one normal form exactly when they are the same up to the order of keys. -/
theorem normal_eq_iff (ha : a.Simple) (hb : b.Simple) :
    a.normal = b.normal ↔ a.agrees b = true := by
  induction ha generalizing b with
  | null => cases hb <;> simp [normal, agrees]
  | bool x => cases hb <;> simp [normal, agrees]
  | int i => cases hb <;> simp [normal, agrees]
  | text s => cases hb <;> simp [normal, agrees]
  | @list items simple ih =>
      cases hb with
      | @list others simple' =>
          rw [normal_list, normal_list, agrees_list_iff, Value.list.injEq]
          clear simple
          induction items generalizing others with
          | nil => cases others <;> simp
          | cons v vs rest =>
              cases others with
              | nil => simp
              | cons w ws =>
                  obtain ⟨hv, hvs⟩ := List.forall_mem_cons.mp ih
                  obtain ⟨hw, hws⟩ := List.forall_mem_cons.mp simple'
                  rw [List.map_cons, List.map_cons, List.cons.injEq, List.forall₂_cons, hv hw,
                    rest hvs hws]
      | _ => simp [normal, agrees]
  | @map fields distinct simple ih =>
      cases hb with
      | @map others distinct' simple' =>
          rw [normal_map, normal_map, agrees_map_iff, Value.map.injEq,
            sorted_fields_eq_iff distinct distinct']
          refine and_congr_right fun _ => forall₂_congr fun f hf => ?_
          refine exists_congr fun b => and_congr_right fun hget => ?_
          exact ih f hf (simple' _ ((Fields.get?_eq_some_iff distinct').mp hget))
      | _ => simp [normal, agrees]

end Forms

end Value

end Toolbar
