/-
# `Toolbar.Proofs.Event.Registered` — who is registered after a history

What happens on a bus is a history: listeners subscribe and unsubscribe, and they are called in
between.  Who is registered for an event then can be told from the history alone: all subscriptions to
the event in their order, less the earliest one that is left of a listener for each time that it has
unsubscribed with success.  Subscribing and unsubscribing may alternate in any way, and it does not
matter when the earliest one is taken away, as it is there already when the listener unsubscribes.

    Happening     one thing that happens
    Leads         a history leads from one bus to another
    registered    who is registered, by the history
    calledAt      who has been called, by the history
-/
import Mathlib.Data.List.Perm.Subperm
import Toolbar.Event.Bus

namespace Toolbar.Event

/-- What happens on a bus.  A call of a listener has a level, by how deep publishing is nested. -/
inductive Happening (κ : Type) where
  | subscribed (name : String) (listener : κ)
  /-- A listener has unsubscribed, and whether it was subscribed. -/
  | unsubscribed (name : String) (listener : κ) (was : Bool)
  | begun (level : Nat) (listener : κ)
  /-- A call has ended, and whether the listener ended well or failed. -/
  | ended (level : Nat) (listener : κ) (well : Bool)
deriving DecidableEq, Repr

variable {κ : Type}

/-- Who subscribes to an event. -/
def Happening.comes? (name : String) : Happening κ → Option κ
  | .subscribed n k => if n = name then some k else none
  | _ => none

/-- Who unsubscribes from an event, with success. -/
def Happening.goes? (name : String) : Happening κ → Option κ
  | .unsubscribed n k true => if n = name then some k else none
  | _ => none

/-- Who is called, at a level. -/
def Happening.calls? (level : Nat) : Happening κ → Option κ
  | .begun l k => if l = level then some k else none
  | _ => none

/-- The subscriptions to an event in a history, in order. -/
def subscriptions (name : String) (t : List (Happening κ)) : List κ :=
  t.filterMap (·.comes? name)

/-- Who has unsubscribed from an event in a history with success, in order and as often. -/
def revocations (name : String) (t : List (Happening κ)) : List κ :=
  t.filterMap (·.goes? name)

/-- Who has been called at a level in a history, in order. -/
def calledAt (level : Nat) (t : List (Happening κ)) : List κ :=
  t.filterMap (·.calls? level)

theorem subscriptions_concat (name : String) (t : List (Happening κ)) (x : Happening κ) :
    subscriptions name (t ++ [x]) = subscriptions name t ++ (x.comes? name).toList := by
  rw [subscriptions, List.filterMap_append, List.filterMap_cons]
  cases x.comes? name <;> rfl

theorem revocations_concat (name : String) (t : List (Happening κ)) (x : Happening κ) :
    revocations name (t ++ [x]) = revocations name t ++ (x.goes? name).toList := by
  rw [revocations, List.filterMap_append, List.filterMap_cons]
  cases x.goes? name <;> rfl

theorem calledAt_append (level : Nat) (t t' : List (Happening κ)) :
    calledAt level (t ++ t') = calledAt level t ++ calledAt level t' :=
  List.filterMap_append

theorem calledAt_begun (level l : Nat) (k : κ) (t : List (Happening κ)) :
    calledAt level (.begun l k :: t) = (if l = level then [k] else []) ++ calledAt level t := by
  by_cases h : l = level <;> simp [calledAt, Happening.calls?, h]

variable [DecidableEq κ]

/-- The subscriptions to an event, less the earliest one that is left of a listener for each time that
it has unsubscribed with success. -/
def registered (name : String) (t : List (Happening κ)) : List κ :=
  (subscriptions name t).diff (revocations name t)

/-- A history leads from one bus to another: each of its happenings has changed the bus as it tells,
and has found what it tells. -/
inductive Leads : Bus κ → List (Happening κ) → Bus κ → Prop
  | nil (b : Bus κ) : Leads b [] b
  | subscribed {b b' : Bus κ} {t : List (Happening κ)} (name : String) (listener : κ) :
      Leads (b.subscribe name listener) t b' → Leads b (.subscribed name listener :: t) b'
  | unsubscribed {b b' : Bus κ} {t : List (Happening κ)} (name : String) (listener : κ) :
      Leads (b.unsubscribe name listener).1 t b' →
      Leads b (.unsubscribed name listener (b.unsubscribe name listener).2 :: t) b'
  | begun {b b' : Bus κ} {t : List (Happening κ)} (level : Nat) (listener : κ) :
      Leads b t b' → Leads b (.begun level listener :: t) b'
  | ended {b b' : Bus κ} {t : List (Happening κ)} (level : Nat) (listener : κ) (well : Bool) :
      Leads b t b' → Leads b (.ended level listener well :: t) b'

theorem Leads.trans {a b c : Bus κ} {t t' : List (Happening κ)} (h : Leads a t b)
    (h' : Leads b t' c) : Leads a (t ++ t') c := by
  induction h with
  | nil => exact h'
  | subscribed name k _ ih => exact .subscribed name k (ih h')
  | unsubscribed name k _ ih => exact .unsubscribed name k (ih h')
  | begun level k _ ih => exact .begun level k (ih h')
  | ended level k well _ ih => exact .ended level k well (ih h')

/-! ## Subscriptions and revocations -/

/-- All that is taken away is there. -/
def Covers (subs revs : List κ) : Prop :=
  ∀ k, revs.count k ≤ subs.count k

theorem Covers.count_diff {subs revs : List κ} (h : Covers subs revs) (k : κ) :
    revs.count k + (subs.diff revs).count k = subs.count k := by
  rw [← List.count_append]
  exact (List.subperm_append_diff_self_of_count_le fun x _ => h x).count_eq k

theorem Covers.length_diff {subs revs : List κ} (h : Covers subs revs) :
    revs.length + (subs.diff revs).length = subs.length := by
  rw [← List.length_append]
  exact (List.subperm_append_diff_self_of_count_le fun x _ => h x).length_eq

theorem Covers.concat {subs revs : List κ} (h : Covers subs revs) (k : κ) :
    Covers (subs ++ [k]) revs := by
  intro x
  rw [List.count_append]
  exact Nat.le_add_right_of_le (h x)

/-- What is taken away comes from what was there before the last one came. -/
theorem Covers.diff_concat {subs revs : List κ} (h : Covers subs revs) (k : κ) :
    (subs ++ [k]).diff revs = subs.diff revs ++ [k] := by
  induction revs generalizing subs with
  | nil => rfl
  | cons a revs ih =>
      have hcount := h a
      rw [List.count_cons_self] at hcount
      have ha : a ∈ subs := List.count_pos_iff.mp (by omega)
      have hrest : Covers (subs.erase a) revs := by
        intro x
        have hx := h x
        rw [List.count_cons] at hx
        rw [List.count_erase]
        omega
      rw [List.diff_cons, List.diff_cons, List.erase_append_left _ ha, ih hrest]

/-- Who is left can be taken away once more. -/
theorem Covers.revoke {subs revs : List κ} (h : Covers subs revs) {k : κ}
    (hk : k ∈ subs.diff revs) : Covers subs (revs ++ [k]) := by
  intro x
  have hsum := h.count_diff x
  rw [List.count_append, List.count_singleton]
  by_cases hx : (k == x) = true
  · have hpos : 0 < (subs.diff revs).count x := by
      rw [← beq_iff_eq.mp hx]
      exact List.count_pos_iff.mpr hk
    rw [if_pos hx]
    omega
  · rw [if_neg hx]
    omega

/-! ## Histories -/

/-- A bus has the listeners that a history tells, and the history takes away nothing that was not
there. -/
structure Accounts (t : List (Happening κ)) (b : Bus κ) : Prop where
  listeners : ∀ name, b.listeners name = registered name t
  covers : ∀ name, Covers (subscriptions name t) (revocations name t)

theorem accounts_empty : Accounts (κ := κ) [] {} where
  listeners := fun _ => rfl
  covers := fun _ _ => Nat.le_refl 0

/-- A happening that neither subscribes nor unsubscribes leaves the accounts as they are. -/
theorem Accounts.pass {t : List (Happening κ)} {b : Bus κ} (h : Accounts t b) {x : Happening κ}
    (comes : ∀ name, x.comes? name = none) (goes : ∀ name, x.goes? name = none) :
    Accounts (t ++ [x]) b := by
  have hsubs : ∀ name, subscriptions name (t ++ [x]) = subscriptions name t := by
    intro name
    rw [subscriptions_concat, comes, Option.toList_none, List.append_nil]
  have hrevs : ∀ name, revocations name (t ++ [x]) = revocations name t := by
    intro name
    rw [revocations_concat, goes, Option.toList_none, List.append_nil]
  refine ⟨?_, ?_⟩
  · intro name
    rw [registered, hsubs, hrevs]
    exact h.listeners name
  · intro name
    rw [hsubs, hrevs]
    exact h.covers name

theorem Accounts.subscribe {t : List (Happening κ)} {b : Bus κ} (h : Accounts t b) (name : String)
    (k : κ) : Accounts (t ++ [.subscribed name k]) (b.subscribe name k) := by
  have hrevs : ∀ other, revocations other (t ++ [.subscribed name k]) = revocations other t := by
    intro other
    rw [revocations_concat]
    exact List.append_nil _
  refine ⟨?_, ?_⟩
  · intro other
    rw [Bus.listeners_subscribe, registered, hrevs, subscriptions_concat, Happening.comes?]
    by_cases hname : other = name
    · subst hname
      rw [if_pos rfl, if_pos rfl, Option.toList_some, (h.covers other).diff_concat, h.listeners]
      rfl
    · rw [if_neg hname, if_neg (Ne.symm hname), Option.toList_none, List.append_nil]
      exact h.listeners other
  · intro other
    rw [hrevs, subscriptions_concat]
    cases Happening.comes? other (.subscribed name k) with
    | none => rw [Option.toList_none, List.append_nil]; exact h.covers other
    | some k' => exact (h.covers other).concat k'

/-- Who unsubscribes has success when it is registered. -/
theorem Accounts.was_iff {t : List (Happening κ)} {b : Bus κ} (h : Accounts t b) (name : String)
    (k : κ) : (b.unsubscribe name k).2 = true ↔ k ∈ registered name t := by
  rw [← h.listeners, ← List.contains_iff_mem]
  unfold Bus.unsubscribe
  split
  next hin => exact ⟨fun _ => hin, fun _ => rfl⟩
  next hout => exact ⟨(fun h => nomatch h), fun h => absurd h hout⟩

theorem Accounts.unsubscribe {t : List (Happening κ)} {b : Bus κ} (h : Accounts t b) (name : String)
    (k : κ) : Accounts (t ++ [.unsubscribed name k (b.unsubscribe name k).2])
      (b.unsubscribe name k).1 := by
  cases hwas : (b.unsubscribe name k).2 with
  | false =>
      have same : (b.unsubscribe name k).1 = b := by
        unfold Bus.unsubscribe at hwas ⊢
        split at hwas
        · cases hwas
        next hout => rw [if_neg hout]
      rw [same]
      exact h.pass (fun _ => rfl) (fun _ => rfl)
  | true =>
      have hk : k ∈ registered name t := (h.was_iff name k).mp hwas
      have hsubs : ∀ other, subscriptions other (t ++ [.unsubscribed name k true]) =
          subscriptions other t := by
        intro other
        rw [subscriptions_concat]
        exact List.append_nil _
      refine ⟨?_, ?_⟩
      · intro other
        rw [Bus.listeners_unsubscribe, registered, hsubs, revocations_concat, Happening.goes?]
        by_cases hname : other = name
        · subst hname
          rw [if_pos rfl, if_pos rfl, Option.toList_some, List.diff_append, List.diff_cons,
            h.listeners]
          rfl
        · rw [if_neg hname, if_neg (Ne.symm hname), Option.toList_none, List.append_nil]
          exact h.listeners other
      · intro other
        rw [hsubs, revocations_concat, Happening.goes?]
        by_cases hname : other = name
        · subst hname
          rw [if_pos rfl]
          exact (h.covers other).revoke hk
        · rw [if_neg (Ne.symm hname), Option.toList_none, List.append_nil]
          exact h.covers other

/-- A history that goes on keeps the accounts. -/
theorem Accounts.leads {t t' : List (Happening κ)} {b b' : Bus κ} (h : Accounts t b)
    (leads : Leads b t' b') : Accounts (t ++ t') b' := by
  induction leads generalizing t with
  | nil b =>
      rw [List.append_nil]
      exact h
  | subscribed name k _ ih =>
      rw [← List.singleton_append, ← List.append_assoc]
      exact ih (h.subscribe name k)
  | unsubscribed name k _ ih =>
      rw [← List.singleton_append, ← List.append_assoc]
      exact ih (h.unsubscribe name k)
  | begun level k _ ih =>
      rw [← List.singleton_append, ← List.append_assoc]
      exact ih (h.pass (fun _ => rfl) (fun _ => rfl))
  | ended level k well _ ih =>
      rw [← List.singleton_append, ← List.append_assoc]
      exact ih (h.pass (fun _ => rfl) (fun _ => rfl))

/-- How many listeners an event has: one for each subscription, less those that were revoked. -/
theorem Accounts.count {t : List (Happening κ)} {b : Bus κ} (h : Accounts t b) (name : String) :
    (revocations name t).length + b.count name = (subscriptions name t).length := by
  rw [Bus.count, h.listeners]
  exact (h.covers name).length_diff

end Toolbar.Event
