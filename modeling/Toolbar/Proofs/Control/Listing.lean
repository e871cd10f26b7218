/-
# `Toolbar.Proofs.Control.Listing` — what becomes of the answer to a query for configurations

The configurations of a control are asked for once, and what comes back is one of two things: the
store has failed, and a text says so; or it lists values, and each record among them makes one
configuration, in their order.  Attributes may hold any values.  All but one are taken as they are;
the position is made an integer, and there are values of which no integer can be made:

    position attribute                  configuration
    an integer, a finite double         at its integer part
    a text that denotes one of them     at its integer part
    a NaN, or a text that denotes one   a fault; at zero
    infinite, or a text that says so    a fault
    any other value                     at zero

One such record is enough for the whole list to be lost (`fetchConfigs_accounted`).
-/
import Mathlib.Data.List.Forall2
import Toolbar.Control.View
import Toolbar.Proofs.Session.FixedStore

namespace Toolbar

namespace Button.Source

/-! ## Positions -/

/-- No integer can be made of a value: it is a number that is not finite, or a text that denotes an
infinite one. -/
inductive Unplaceable : Value → Prop
  | infinite (negative : Bool) : Unplaceable (.num (.real (.infinite negative)))
  | nan (payload : Nat) : Unplaceable (.num (.real (.nan payload)))
  | text {s : String} {negative : Bool} :
      Number.readReal? s = some (.infinite negative) → Unplaceable (.text s)

/-- A position is an integer, or it is a fault for want of one. -/
theorem position_cases (v : Value) :
    (¬ Unplaceable v ∧ ∃ p, position v = .ok p) ∨ (Unplaceable v ∧ ∃ f, position v = .error f) := by
  cases v with
  | num n =>
      cases n with
      | int i => exact .inl ⟨(fun h => nomatch h), i, rfl⟩
      | real x =>
          cases x with
          | finite negative m e => exact .inl ⟨(fun h => nomatch h), _, rfl⟩
          | infinite negative => exact .inr ⟨.infinite negative, .outOfRange, rfl⟩
          | nan payload => exact .inr ⟨.nan payload, .malformed, rfl⟩
  | text s =>
      cases hs : Number.readReal? s with
      | none =>
          refine .inl ⟨?_, 0, by simp only [position, hs]⟩
          rintro ⟨⟩
          next h => cases hs.symm.trans h
      | some x =>
          cases x with
          | finite negative m e =>
              refine .inl ⟨?_, _, by simp only [position, hs]; rfl⟩
              rintro ⟨⟩
              next h => cases hs.symm.trans h
          | infinite negative =>
              refine .inr ⟨.text hs, .outOfRange, ?_⟩
              simp only [position, hs]
              rfl
          | nan payload =>
              refine .inl ⟨?_, 0, by simp only [position, hs]; rfl⟩
              rintro ⟨⟩
              next h => cases hs.symm.trans h
  | _ => exact .inl ⟨(fun h => nomatch h), 0, rfl⟩

theorem unplaceable_iff {v : Value} : (position v).isOk = false ↔ Unplaceable v := by
  rcases position_cases v with ⟨hno, p, hp⟩ | ⟨h, f, hf⟩
  · rw [hp]
    exact ⟨(fun h => nomatch h), fun h => absurd h hno⟩
  · rw [hf]
    exact ⟨fun _ => h, fun _ => rfl⟩

instance (v : Value) : Decidable (Unplaceable v) :=
  decidable_of_iff _ unplaceable_iff

/-! ## Records -/

/-- The position attribute of a record, null when it has none. -/
def positionOf (record : Fields) : Value :=
  (record.get? "theia_buttonposition").getD .null

/-- A record is described by a configuration, at an integer position. -/
def Describes (record : Fields) (c : Config) : Prop :=
  config record = .ok c ∧ ∃ p : Int, c.position = .int p

theorem config_describes {record : Fields} (h : ¬ Unplaceable (positionOf record)) :
    ∃ c, Describes record c := by
  rcases position_cases (positionOf record) with ⟨-, p, hp⟩ | ⟨hno, -⟩
  · have hconfig : ∃ c, config record = .ok c ∧ c.position = .int p := by
      show ∃ c, (position (positionOf record)).bind _ = .ok c ∧ _
      rw [hp]
      exact ⟨_, rfl, rfl⟩
    obtain ⟨c, hc, hposition⟩ := hconfig
    exact ⟨c, hc, p, hposition⟩
  · exact absurd hno h

theorem config_fails {record : Fields} (h : Unplaceable (positionOf record)) :
    ∃ f, config record = .error f := by
  rcases position_cases (positionOf record) with ⟨hno, -⟩ | ⟨-, f, hf⟩
  · exact absurd h hno
  · refine ⟨f, ?_⟩
    show (position (positionOf record)).bind _ = _
    rw [hf]
    rfl

/-- The records among some values. -/
def records (vs : List Value) : List Fields :=
  vs.filterMap Value.fields?

/-- Each record among the values is described, one after the other. -/
theorem configs_describe {vs : List Value}
    (h : ∀ record ∈ records vs, ¬ Unplaceable (positionOf record)) :
    ∃ cs, configs vs = .ok cs ∧ List.Forall₂ Describes (records vs) cs := by
  induction vs with
  | nil => exact ⟨[], rfl, .nil⟩
  | cons v vs ih =>
      cases v with
      | map fields =>
          have hsplit : records (.map fields :: vs) = fields :: records vs := rfl
          rw [hsplit, List.forall_mem_cons] at h
          obtain ⟨c, hc, hp⟩ := config_describes h.1
          obtain ⟨cs, hcs, hall⟩ := ih h.2
          refine ⟨c :: cs, ?_, .cons ⟨hc, hp⟩ hall⟩
          show (config fields).bind (fun c => (configs vs).bind fun cs => .ok (c :: cs)) = _
          rw [hc, hcs]
          rfl
      | _ => exact ih h

/-- One record that cannot be placed is enough. -/
theorem configs_fail {vs : List Value}
    (h : ∃ record ∈ records vs, Unplaceable (positionOf record)) : ∃ f, configs vs = .error f := by
  induction vs with
  | nil =>
      obtain ⟨record, hmem, -⟩ := h
      cases hmem
  | cons v vs ih =>
      cases v with
      | map fields =>
          show ∃ f, (config fields).bind
            (fun c => (configs vs).bind fun cs => .ok (c :: cs)) = .error f
          have hsplit : records (.map fields :: vs) = fields :: records vs := rfl
          rw [hsplit, List.exists_mem_cons_iff] at h
          cases hc : config fields with
          | error f => exact ⟨f, rfl⟩
          | ok c =>
              rcases h with h | h
              · obtain ⟨f, hf⟩ := config_fails h
                cases hc.symm.trans hf
              · obtain ⟨f, hf⟩ := ih h
                exact ⟨f, by rw [hf]; rfl⟩
      | _ => exact ih h

/-- An answer lists some values; no list at all lists none. -/
def Lists (answer : Value) (vs : List Value) : Prop :=
  ∃ fields, answer = .map fields ∧
    (answer.field "entities" = .list vs ∨ answer.field "entities" = .null ∧ vs = [])

theorem ofAnswer_of_lists {answer : Value} {vs : List Value} (h : Lists answer vs) :
    ofAnswer answer = configs vs := by
  obtain ⟨fields, rfl, h⟩ := h
  show (items (Value.field "entities" (.map fields))).bind configs = _
  rcases h with h | ⟨h, rfl⟩
  · rw [h]
    rfl
  · rw [h]
    rfl

end Button.Source

namespace Control

open Button.Source

/-! ## The answer of the store -/

/-- What becomes of the answer of a store to the query. -/
def received : Except StoreFault Value → Except Fault (List Button.Config × Option String)
  | .error f => .ok ([], some (if f.text.isEmpty then configFaultText else f.text))
  | .ok answer => (ofAnswer answer).map fun configs => (configs, none)

/-- How the work goes on once the store has replied. -/
def afterReply : Except StoreFault (Option Nat) →
    Work (Except Fault (List Button.Config × Option String))
  | .error f => .done (received (.error f))
  | .ok place => .look fun s => .done (received (.ok (s.outer.shelf.get? place)))

theorem fetchConfigs_eq (configEntity entity condition : String) :
    fetchConfigs configEntity entity condition =
      .ask (.collection configEntity (query entity condition)) afterReply := by
  refine congrArg (Task.ask _) (funext fun reply => ?_)
  cases reply with
  | error f => rfl
  | ok place => rfl

/-- The reply of the store is all that the work waits for. -/
theorem afterReply_run {s : Shared Nat Session} {answer : Except StoreFault Value}
    {reply : Except StoreFault (Option Nat)} (tells : s.outer.shelf.Tells answer reply)
    (sup : Supplier Nat StoreFault Session) (number : Nat) :
    (afterReply reply).run sup number s = (s, .finished (received answer)) := by
  rcases answer with f | v
  · rcases reply with g | place
    · cases tells
      rfl
    · exact tells.elim
  · rcases reply with g | _ | place
    · exact tells.elim
    · have hnull : v.isNull = true := tells
      cases v with
      | null => rfl
      | _ => cases hnull
    · have hget : s.outer.shelf.get place = v := Shelf.Holds.get tells.2
      show (s, Progress.finished (received (.ok (s.outer.shelf.get place)))) = _
      rw [hget]

/-- Work that asks the store once, and ends with what it makes of the answer: at once, or when the
answer is released, with the store as it is then. -/
def EndsWith {α : Type} (request : Request) (f : Except StoreFault Value → α) (w : Work α) : Prop :=
  ∀ (attempts : Nat) (delay : Number) (number : Nat) (s : Shared Nat Session),
    (s.outer.store.manual = false → ∃ t, w.run (Session.supplier attempts delay) number s =
      (t, .finished (f (s.outer.store.answer request)))) ∧
    (s.outer.store.manual = true → ∃ t next, w.run (Session.supplier attempts delay) number s =
        (t, .parked (.asking request next)) ∧
      ∀ wait u, ∃ t', Machine.resume (Session.supplier attempts delay) Session.serve
        ⟨wait, number, .asking request next⟩ u =
          (t', .finished (f (u.outer.store.answer request))))

theorem fetchConfigs_ends (configEntity entity condition : String) :
    EndsWith (.collection configEntity (query entity condition)) received
      (fetchConfigs configEntity entity condition) := by
  intro attempts delay number s
  rw [fetchConfigs_eq]
  constructor
  · intro atOnce
    simp only [Task.run, Session.supplier]
    rw [if_neg (by rw [Session.write, atOnce]; exact Bool.false_ne_true)]
    exact ⟨_, afterReply_run (Session.serve_tells _ rfl) _ number⟩
  · intro manual
    simp only [Task.run, Session.supplier]
    rw [if_pos (by rw [Session.write, manual])]
    refine ⟨_, afterReply, rfl, ?_⟩
    intro wait u
    exact ⟨_, afterReply_run (Session.serve_tells _ rfl) _ number⟩

theorem received_error (f : StoreFault) :
    ∃ text, received (.error f) = .ok ([], some text) ∧ text ≠ "" := by
  refine ⟨_, rfl, ?_⟩
  split
  next => decide
  next h =>
    intro hempty
    rw [hempty] at h
    exact h rfl

/-- **Every answer to the query is accounted for.**  The store is asked once.  When it fails, there
are no configurations and a text that is not empty.  When it lists values, there is no text, and each
record among them has its one configuration, in order and at an integer position, whatever its
attributes hold; unless one of the records has a position of which no integer can be made, and then
there is nothing but a fault. -/
theorem fetchConfigs_accounted (configEntity entity condition : String) :
    EndsWith (.collection configEntity (query entity condition)) received
      (fetchConfigs configEntity entity condition) ∧
    (∀ f, ∃ text, received (.error f) = .ok ([], some text) ∧ text ≠ "") ∧
    ∀ answer vs, Lists answer vs →
      ((∀ record ∈ records vs, ¬ Unplaceable (positionOf record)) →
        ∃ configs, received (.ok answer) = .ok (configs, none) ∧
          List.Forall₂ Describes (records vs) configs) ∧
      ((∃ record ∈ records vs, Unplaceable (positionOf record)) →
        ∃ f, received (.ok answer) = .error f) := by
  refine ⟨fetchConfigs_ends configEntity entity condition, received_error, ?_⟩
  intro answer vs lists
  have hreceived : received (.ok answer) = (Button.Source.configs vs).map fun cs => (cs, none) := by
    rw [← ofAnswer_of_lists lists]
    rfl
  rw [hreceived]
  constructor
  · intro placeable
    obtain ⟨cs, hcs, described⟩ := configs_describe placeable
    refine ⟨cs, ?_, described⟩
    rw [hcs]
    rfl
  · intro unplaceable
    obtain ⟨f, hf⟩ := configs_fail unplaceable
    refine ⟨f, ?_⟩
    rw [hf]
    rfl

/-- Values that a store may list: two records with odd positions, and a number between them. -/
def oddList : List Value :=
  [.map [("theia_buttonposition", .text "nan")], .int 3,
    .map [("theia_buttonposition", .text "-7.9"), ("theia_buttonlabel", .bool true)]]

/-- An answer with a list in it. -/
def listing (vs : List Value) : Value :=
  .map [("entities", .list vs)]

/-- The two records have their configurations, and an infinite position loses both. -/
theorem oddList_accounted :
    (∃ configs, received (.ok (listing oddList)) = .ok (configs, none) ∧ configs.length = 2) ∧
    ∃ f, received (.ok (listing (oddList ++
      [.map [("theia_buttonposition", .real (.infinite false))]]))) = .error f := by
  obtain ⟨-, -, accounted⟩ := fetchConfigs_accounted "theia_buttonconfiguration" "contact" ""
  constructor
  · obtain ⟨configs, hconfigs, described⟩ :=
      (accounted (listing oddList) oddList ⟨_, rfl, .inl rfl⟩).1 (by decide +kernel)
    exact ⟨configs, hconfigs, described.length_eq.symm⟩
  · exact (accounted _ _ ⟨_, rfl, .inl rfl⟩).2
      ⟨[("theia_buttonposition", .real (.infinite false))], by
        rw [records, List.filterMap_append]
        exact List.mem_append_right _ List.mem_cons_self, .infinite false⟩

end Control

end Toolbar
