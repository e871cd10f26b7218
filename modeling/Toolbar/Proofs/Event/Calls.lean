/-
# `Toolbar.Proofs.Event.Calls` — who is called when an event is published

Listeners do what they like while an event is delivered: they fail, subscribe and unsubscribe, each
other and themselves, and publish further events.  To see who is called, the delivery is written once
more so that it also tells what happens, in order; what it does is the same (`Traced.broadcast_snd`).

The history of a publication then has one form.  The listeners that the event had when it was
published are called in their order, each once for each of its subscriptions, and a call has ended
before the next one begins, well or not.  What happens during a call are subscriptions, revocations
and further publications, which have the same form one level below.

    Calls      the history of a publication: calls one after the other
    During     what happens while a listener is called
    Step       what the host does with a bus
-/
import Toolbar.Event.Delivery
import Toolbar.Proofs.Event.Registered

namespace Toolbar.Event

variable {κ : Type} [DecidableEq κ]

/-- What comes of publishing an event, with what happens meanwhile. -/
abbrev Traced (κ : Type) : Type :=
  Value → Hall κ → List (Happening κ) × Hall κ × Except Undelivered Unit

namespace Traced

/-! ## What happens in a delivery -/

section Delivery

variable (publishInner : Traced κ)

/-- What happens in one act of a listener, and what the act does. -/
def run (listener : κ) : Act κ → Value → Hall κ → List (Happening κ) × Bool × Value × Hall κ
  | .subscribe name other, event, h =>
      ([.subscribed name other], true, event, { h with bus := h.bus.subscribe name other })
  | .unsubscribe name other, event, h =>
      let (bus, was) := h.bus.unsubscribe name other
      ([.unsubscribed name other was], true, event, { h with bus }.write (.removed was))
  | .publish inner, event, h =>
      let (t, h, sent) := publishInner inner h
      (t, sent.isOk, event, h)
  | .note, event, h => ([], true, event, h.write (.called listener (event.field "payload")))
  | .set key v, event, h => ([], true, setPayload event key v, h)
  | .close, event, h => ([], true, event, h.write (.closed listener))
  | .fail, event, h => ([], false, event, h)

/-- What happens while a listener is called, and what the call does. -/
def perform (listener : κ) :
    Conduct κ → Value → Hall κ → List (Happening κ) × Bool × Value × Hall κ
  | .done, event, h => ([], true, event, h)
  | .failed, event, h => ([], false, event, h)
  | .act a next, event, h =>
      let (t, succeeded, event, h) := run publishInner listener a event h
      let r := perform listener (next succeeded event h) event h
      (t ++ r.1, r.2)

/-- Calls listeners one after the other, and tells when each call begins and ends. -/
def deliver (manners : Manners κ) (level : Nat) :
    List κ → Value → Hall κ → List (Happening κ) × Hall κ
  | [], _, h => ([], h)
  | k :: ks, event, h =>
      let (t, well, event, h) := perform publishInner k (manners k event h) event h
      let r := deliver manners level ks event h
      (.begun level k :: t ++ .ended level k well :: r.1, r.2)

end Delivery

/-- Publishes an event, and tells what happens.  The level of a call is how deep publishing may be
nested in it. -/
def broadcast (manners : Manners κ) : (depth : Nat) → Traced κ
  | 0, _, h => ([], h, .error .tooDeep)
  | depth + 1, event, h =>
      match validate event with
      | .error reason => ([], h, .error (.invalid reason))
      | .ok name =>
          let r := deliver (broadcast manners depth) manners depth (h.bus.listeners name) event h
          (r.1, r.2, .ok ())

theorem broadcast_invalid (manners : Manners κ) (depth : Nat) {event : Value} (h : Hall κ)
    {reason : Invalid} (invalid : validate event = .error reason) :
    broadcast manners (depth + 1) event h = ([], h, .error (.invalid reason)) := by
  rw [broadcast, invalid]

theorem broadcast_valid (manners : Manners κ) (depth : Nat) {event : Value} (h : Hall κ)
    {name : String} (valid : validate event = .ok name) :
    broadcast manners (depth + 1) event h =
      ((deliver (broadcast manners depth) manners depth (h.bus.listeners name) event h).1,
        (deliver (broadcast manners depth) manners depth (h.bus.listeners name) event h).2,
        .ok ()) := by
  rw [broadcast, valid]

/-! ## The delivery itself is the same -/

section Same

variable {publishInner : Traced κ} {plain : Value → Hall κ → Hall κ × Except Undelivered Unit}

theorem run_snd (same : ∀ event h, (publishInner event h).2 = plain event h) (listener : κ)
    (a : Act κ) (event : Value) (h : Hall κ) :
    (run publishInner listener a event h).2 = a.run plain listener event h := by
  cases a with
  | publish inner =>
      rw [run, Act.run, ← same]
  | _ => rfl

theorem perform_snd (same : ∀ event h, (publishInner event h).2 = plain event h) (listener : κ)
    (conduct : Conduct κ) (event : Value) (h : Hall κ) :
    (perform publishInner listener conduct event h).2 =
      Event.perform plain listener conduct event h := by
  induction conduct generalizing event h with
  | done => rfl
  | failed => rfl
  | act a next ih =>
      rw [perform, Event.perform, ← run_snd same]
      exact ih _ _ _ _ _

theorem deliver_snd (same : ∀ event h, (publishInner event h).2 = plain event h)
    (manners : Manners κ) (level : Nat) (ks : List κ) (event : Value) (h : Hall κ) :
    (deliver publishInner manners level ks event h).2 = Event.deliver plain manners ks event h := by
  induction ks generalizing event h with
  | nil => rfl
  | cons k ks ih =>
      rw [deliver, Event.deliver, ← perform_snd same]
      exact ih _ _

end Same

theorem broadcast_snd (manners : Manners κ) (depth : Nat) (event : Value) (h : Hall κ) :
    (broadcast manners depth event h).2 = Event.broadcast manners depth event h := by
  induction depth generalizing event h with
  | zero => rfl
  | succ depth ih =>
      rw [broadcast, Event.broadcast]
      cases validate event with
      | error reason => rfl
      | ok name =>
          show ((deliver (broadcast manners depth) manners depth _ event h).2, _) = _
          rw [deliver_snd ih]

end Traced

/-! ## The form of a history -/

mutual
/-- Listeners are called one after the other, at a level: each call has ended before the next one
begins, well or not.  The history leads from one bus to another. -/
inductive Calls : (level : Nat) → Bus κ → List κ → List (Happening κ) → Bus κ → Prop
  | nil (level : Nat) (b : Bus κ) : Calls level b [] [] b
  | cons {level : Nat} {b b' b'' : Bus κ} {k : κ} {ks : List κ} {t t' : List (Happening κ)}
      (well : Bool) : During level b t b' → Calls level b' ks t' b'' →
      Calls level b (k :: ks) (.begun level k :: t ++ .ended level k well :: t') b''
/-- What happens while a listener is called: subscriptions, revocations, and publications of valid
events below the level, each to the listeners that its event has by then. -/
inductive During : (level : Nat) → Bus κ → List (Happening κ) → Bus κ → Prop
  | nil (level : Nat) (b : Bus κ) : During level b [] b
  | subscribed {level : Nat} {b b' : Bus κ} {t : List (Happening κ)} (name : String) (k : κ) :
      During level (b.subscribe name k) t b' → During level b (.subscribed name k :: t) b'
  | unsubscribed {level : Nat} {b b' : Bus κ} {t : List (Happening κ)} (name : String) (k : κ) :
      During level (b.unsubscribe name k).1 t b' →
      During level b (.unsubscribed name k (b.unsubscribe name k).2 :: t) b'
  | published {level below : Nat} {b b' b'' : Bus κ} {t t' : List (Happening κ)} {event : Value}
      {name : String} : validate event = .ok name → below < level →
      Calls below b (b.listeners name) t b' → During level b' t' b'' →
      During level b (t ++ t') b''
end

mutual
theorem Calls.leads {level : Nat} {b b' : Bus κ} {ks : List κ} {t : List (Happening κ)} :
    Calls level b ks t b' → Leads b t b'
  | .nil _ b => .nil b
  | .cons well during calls => .begun _ _ (during.leads.trans (.ended _ _ well calls.leads))
theorem During.leads {level : Nat} {b b' : Bus κ} {t : List (Happening κ)} :
    During level b t b' → Leads b t b'
  | .nil _ b => .nil b
  | .subscribed name k during => .subscribed name k during.leads
  | .unsubscribed name k during => .unsubscribed name k during.leads
  | .published _ _ calls during => calls.leads.trans during.leads
end

mutual
/-- The calls at the level of a publication are its own, and there are none above. -/
theorem Calls.called {level l : Nat} {b b' : Bus κ} {ks : List κ} {t : List (Happening κ)}
    (hl : level ≤ l) : Calls level b ks t b' → calledAt l t = if level = l then ks else []
  | .nil _ _ => (ite_self _).symm
  | .cons _ during calls => by
      have behind := calls.called hl
      rw [List.cons_append, calledAt_begun, calledAt_append, during.uncalled hl]
      -- the end of a call is no call, so what is left are the calls behind it
      refine Eq.trans (congrArg (_ ++ ·) behind) ?_
      split <;> rfl
theorem During.uncalled {level l : Nat} {b b' : Bus κ} {t : List (Happening κ)} (hl : level ≤ l) :
    During level b t b' → calledAt l t = []
  | .nil _ _ => rfl
  | .subscribed _ _ during => by
      have inside := during.uncalled hl
      exact inside
  | .unsubscribed _ _ during => by
      have inside := during.uncalled hl
      exact inside
  | .published _ hbelow calls during => by
      have hlt := Nat.lt_of_lt_of_le hbelow hl
      rw [calledAt_append, calls.called (Nat.le_of_lt hlt), during.uncalled hl,
        if_neg (Nat.ne_of_lt hlt)]
      rfl
end

/-! ## A publication has this form -/

/-- Publishing calls the listeners of a valid event, at a level below, or else nothing happens. -/
def Orderly (level : Nat) (publishing : Traced κ) : Prop :=
  ∀ event h, (∃ why, publishing event h = ([], h, .error why)) ∨
    ∃ below name t h', publishing event h = (t, h', .ok ()) ∧ below < level ∧
      validate event = .ok name ∧ Calls below h.bus (h.bus.listeners name) t h'.bus

section Form

variable {level : Nat} {publishInner : Traced κ}

/-- One act begins what happens during a call. -/
theorem Orderly.run (inner : Orderly level publishInner) (listener : κ) (a : Act κ) (event : Value)
    (h : Hall κ) {t : List (Happening κ)} {b : Bus κ}
    (rest : During level (Traced.run publishInner listener a event h).2.2.2.bus t b) :
    During level h.bus ((Traced.run publishInner listener a event h).1 ++ t) b := by
  cases a with
  | subscribe name other => exact .subscribed name other rest
  | unsubscribe name other => exact .unsubscribed name other rest
  | publish event' =>
      rw [Traced.run] at rest ⊢
      obtain ⟨why, hinner⟩ | ⟨below, name, t', h', hinner, hbelow, valid, calls⟩ := inner event' h
      · rw [hinner] at rest ⊢
        exact rest
      · rw [hinner] at rest ⊢
        exact .published valid hbelow calls rest
  | _ => exact rest

theorem Orderly.perform (inner : Orderly level publishInner) (listener : κ) (conduct : Conduct κ)
    (event : Value) (h : Hall κ) :
    During level h.bus (Traced.perform publishInner listener conduct event h).1
      (Traced.perform publishInner listener conduct event h).2.2.2.bus := by
  induction conduct generalizing event h with
  | done => exact .nil level h.bus
  | failed => exact .nil level h.bus
  | act a next ih => exact inner.run listener a event h (ih _ _ _ _ _)

theorem Orderly.deliver (inner : Orderly level publishInner) (manners : Manners κ) (ks : List κ)
    (event : Value) (h : Hall κ) :
    Calls level h.bus ks (Traced.deliver publishInner manners level ks event h).1
      (Traced.deliver publishInner manners level ks event h).2.bus := by
  induction ks generalizing event h with
  | nil => exact .nil level h.bus
  | cons k ks ih => exact .cons _ (inner.perform k (manners k event h) event h) (ih _ _)

end Form

theorem broadcast_orderly (manners : Manners κ) (depth : Nat) :
    Orderly depth (Traced.broadcast manners depth) := by
  induction depth with
  | zero => exact fun _ _ => .inl ⟨_, rfl⟩
  | succ depth ih =>
      intro event h
      cases valid : validate event with
      | error reason => exact .inl ⟨_, Traced.broadcast_invalid manners depth h valid⟩
      | ok name =>
          exact .inr ⟨depth, name, _, _, Traced.broadcast_valid manners depth h valid,
            Nat.lt_succ_self depth, rfl, ih.deliver manners _ event h⟩

/-! ## A bus in the hands of its host -/

/-- What the host does with a bus. -/
inductive Step (κ : Type) where
  | subscribe (name : String) (listener : κ)
  | unsubscribe (name : String) (listener : κ)
  | publish (event : Value)

/-- The hall after a step of the host. -/
def Step.run (manners : Manners κ) (depth : Nat) (h : Hall κ) : Step κ → Hall κ
  | .subscribe name k => { h with bus := h.bus.subscribe name k }
  | .unsubscribe name k => { h with bus := (h.bus.unsubscribe name k).1 }
  | .publish event => (broadcast manners depth event h).1

/-- What happens in a step of the host, from a hall on. -/
def Step.happenings (manners : Manners κ) (depth : Nat) (h : Hall κ) : Step κ → List (Happening κ)
  | .subscribe name k => [.subscribed name k]
  | .unsubscribe name k => [.unsubscribed name k (h.bus.unsubscribe name k).2]
  | .publish event => (Traced.broadcast manners depth event h).1

/-- What happens in steps of the host, from a hall on. -/
def history (manners : Manners κ) (depth : Nat) : Hall κ → List (Step κ) → List (Happening κ)
  | _, [] => []
  | h, s :: steps => s.happenings manners depth h ++ history manners depth (s.run manners depth h) steps

theorem Step.leads (manners : Manners κ) (depth : Nat) (h : Hall κ) (s : Step κ) :
    Leads h.bus (s.happenings manners depth h) (s.run manners depth h).bus := by
  cases s with
  | subscribe name k => exact .subscribed name k (.nil _)
  | unsubscribe name k => exact .unsubscribed name k (.nil _)
  | publish event =>
      rw [Step.run, Step.happenings, ← Traced.broadcast_snd]
      obtain ⟨why, hsent⟩ | ⟨below, name, t, h', hsent, -, -, calls⟩ :=
        broadcast_orderly manners depth event h
      · rw [hsent]
        exact .nil _
      · rw [hsent]
        exact calls.leads

theorem history_leads (manners : Manners κ) (depth : Nat) (h : Hall κ) (steps : List (Step κ)) :
    Leads h.bus (history manners depth h steps) (steps.foldl (Step.run manners depth) h).bus := by
  induction steps generalizing h with
  | nil => exact .nil _
  | cons s steps ih => exact (s.leads manners depth h).trans (ih _)

/-- What a host can rely on.  `past` is the history of a bus that was empty at first, whatever the
listeners are like.  The listeners of an event are those that are registered by the history; there is
one for each subscription to it, less those revoked, and a listener is revoked when it is one of them.

A publication of a valid event succeeds, and calls those listeners in their order, each as often as it
is registered, as `Calls` says.  A publication of an invalid event fails, and nothing happens.
Publishing takes up one of the levels, and the others are for what the listeners publish. -/
theorem publication_accounted (manners : Manners κ) (depth : Nat) (steps : List (Step κ))
    (event : Value) :
    let past := history manners (depth + 1) {} steps
    let h := steps.foldl (Step.run manners (depth + 1)) {}
    (∀ name, h.bus.listeners name = registered name past ∧
      h.bus.count name = (registered name past).length ∧
      (revocations name past).length + h.bus.count name = (subscriptions name past).length ∧
      ∀ k, (h.bus.unsubscribe name k).2 = true ↔ k ∈ registered name past) ∧
    match validate event with
    | .ok name => event.field "name" = .text name ∧ ∃ t h',
        Traced.broadcast manners (depth + 1) event h = (t, h', .ok ()) ∧
        broadcast manners (depth + 1) event h = (h', .ok ()) ∧
        calledAt depth t = registered name past ∧
        Calls depth h.bus (registered name past) t h'.bus
    | .error reason =>
        Traced.broadcast manners (depth + 1) event h = ([], h, .error (.invalid reason)) ∧
        broadcast manners (depth + 1) event h = (h, .error (.invalid reason)) := by
  intro past h
  have accounts : Accounts past h.bus :=
    accounts_empty.leads (history_leads manners (depth + 1) {} steps)
  refine ⟨?_, ?_⟩
  · intro name
    refine ⟨accounts.listeners name, ?_, accounts.count name, accounts.was_iff name⟩
    rw [Bus.count, accounts.listeners]
  · have same := Traced.broadcast_snd manners (depth + 1) event h
    cases valid : validate event with
    | error reason =>
        have hsent := Traced.broadcast_invalid manners depth h valid
        rw [hsent] at same
        exact ⟨hsent, same.symm⟩
    | ok name =>
        have hsent := Traced.broadcast_valid manners depth h valid
        rw [hsent] at same
        have calls := (broadcast_orderly manners depth).deliver manners (h.bus.listeners name) event h
        rw [accounts.listeners] at calls
        have called := calls.called (Nat.le_refl depth)
        rw [if_pos rfl] at called
        rw [accounts.listeners] at hsent same
        exact ⟨field_of_validate valid, _, _, hsent, same.symm, called, calls⟩

-- The first listener takes one of its subscriptions away whenever it is called.  It is called twice all
-- the same, and has success both times; the second listener fails in between.
example :
    let tick : Value := .map [("name", .text "tick"), ("payload", .map []),
      ("meta", .map (freshMeta "t-1" "2024-05-01T08:00:00Z"))]
    let manners : Manners Nat := fun k _ _ =>
      .inOrder (if k = 0 then [.unsubscribe "tick" 0] else [.fail])
    let steps : List (Step Nat) := [.subscribe "tick" 0, .subscribe "tick" 1, .subscribe "tick" 0]
    (Traced.broadcast manners 1 tick (steps.foldl (Step.run manners 1) {})).1 =
      [.begun 0 0, .unsubscribed "tick" 0 true, .ended 0 0 true, .begun 0 1, .ended 0 1 false,
        .begun 0 0, .unsubscribed "tick" 0 true, .ended 0 0 true] := by
  decide +kernel

end Toolbar.Event
