/-
# `Toolbar.Proofs.Expr.Chain` — how far a null reaches

A chain of members and calls that begins at a field whose value is null is null as a whole.  One can
picture the null as a signal: the field raises it as the target of a member or of a call, it passes
the members and calls behind it, and the end of the chain catches it.  `raised` is the evaluation
written with that signal, and `agrees` the induction over the syntax that compares it with `reach`,
which hands on nothing instead.  The arguments of a call are evaluated as ends of chains of their
own, so no signal of theirs gets out (`null_confined`).

Every other chain goes from its beginning on step by step.  `Step` says what a step leads to:

    member    of a map            the field, or null
              of null             a type error
              of another value    its attribute, unless the name begins with an underscore
    call      an argument fails   as the first one that fails
              a method            as the method
              no method           an unknown method, as for null
-/
import Toolbar.Expr.Eval
import Toolbar.StandIn.Attributes

namespace Toolbar.Expr

/-! ## Operators -/

/-- The value of a unary operation. -/
def UnaryOp.apply (op : UnaryOp) (v : Value) (path : String) : Except Failure Value :=
  match op with
  | .not => .ok (.bool (!v.truthy))
  | .neg => match number? v with
      | some n => .ok (.num n.neg)
      | none => .error (.refused .notNegatable path)

/-- The value of a binary operation that the left operand settles by itself. -/
def BinaryOp.settled? (op : BinaryOp) (left : Value) : Option Value :=
  match op with
  | .and => if left.truthy then none else some left
  | .or => if left.truthy then some left else none
  | _ => none

/-- The value of a binary operation that the left operand does not settle. -/
def BinaryOp.apply (op : BinaryOp) (left right : Value) (path : String) : Except Failure Value :=
  match op with
  | .and | .or => .ok right
  | .strictEq => .ok (.bool (strictEquals left right))
  | .strictNe => .ok (.bool (!strictEquals left right))
  | .looseEq => .ok (.bool (looseEquals left right))
  | .looseNe => .ok (.bool (!looseEquals left right))
  | .compare c => compareValues c left right path
  | .arith o => arithmetic o left right path

variable (s : Scope)

theorem reach_unary (op : UnaryOp) (operand : Expr) (path : String) :
    reach s (.unary op operand) path =
      ((eval s operand path).bind (op.apply · path)).map some := by
  rw [eval, reach]
  cases reach s operand path with
  | error f => rfl
  | ok v =>
      cases op with
      | not => rfl
      | neg =>
          simp only [bind, Except.bind, Except.map, UnaryOp.apply]
          cases number? (v.getD .null) <;> rfl

theorem reach_binary (left : Expr) (op : BinaryOp) (right : Expr) (path : String) :
    reach s (.binary left op right) path =
      ((eval s left (path ++ ".left")).bind fun a =>
        match op.settled? a with
        | some v => .ok v
        | none => (eval s right (path ++ ".right")).bind (op.apply a · path)).map some := by
  rw [eval, eval, reach]
  cases reach s left (path ++ ".left") with
  | error f => rfl
  | ok a =>
      generalize reach s right (path ++ ".right") = b
      cases op with
      | and | or =>
          by_cases truth : (a.getD .null).truthy = true
          all_goals
            cases b <;> simp [bind, Except.bind, Except.map, BinaryOp.settled?, truth,
              BinaryOp.apply, pure, Except.pure]
      | strictEq | strictNe | looseEq | looseNe | compare _ | arith _ =>
          cases b <;> simp [bind, Except.bind, Except.map, BinaryOp.settled?,
            BinaryOp.apply, pure, Except.pure]

/-! ## The signal -/

/-- What ends an evaluation before it has a value: the signal of a chain that begins at a field
that is null, or a failure. -/
inductive Stop where
  | nullChain
  | failed (f : Failure)

/-- Null where the signal was raised. -/
def caught : Except Stop Value → Except Stop Value
  | .error .nullChain => .ok .null
  | r => r

mutual
/-- The evaluation with the signal raised and caught.  As a `target` of a member or a call a field
that is null raises the signal, and a chain that is no target itself catches it. -/
def raised (s : Scope) : (target : Bool) → Expr → (path : String) → Except Stop Value
  | _, .literal v, _ => .ok v
  | target, .field p, _ =>
      if target && (s.field p).isNull then .error .nullChain else .ok (s.field p)
  | _, .root r, _ => .ok (s.root r)
  | target, .member e name, path =>
      let value := do
        let v ← raised s true e path
        (readMember s v name (path ++ "." ++ name)).mapError .failed
      if target then value else caught value
  | target, .call e name args, path =>
      let value := do
        let v ← raised s true e path
        let vs ← raisedAll s args (path ++ "." ++ name ++ "()")
        (callMethod v name vs (path ++ "." ++ name)).mapError .failed
      if target then value else caught value
  | _, .unary op e, path => do
      let v ← raised s false e path
      (op.apply v path).mapError .failed
  | _, .binary left op right, path => do
      let a ← raised s false left (path ++ ".left")
      match op.settled? a with
      | some v => return v
      | none => do
          let b ← raised s false right (path ++ ".right")
          (op.apply a b path).mapError .failed
/-- The values of arguments, from the left. -/
def raisedAll (s : Scope) : List Expr → (path : String) → Except Stop (List Value)
  | [], _ => .ok []
  | e :: es, path => do
      let v ← raised s false e path
      let vs ← raisedAll s es path
      return v :: vs
end

/-- The outcome for a target, with nothing for the signal. -/
def signalled : Except Failure (Option Value) → Except Stop Value
  | .error f => .error (.failed f)
  | .ok none => .error .nullChain
  | .ok (some v) => .ok v

theorem mapError_ok {α : Type} (a : α) :
    (Except.ok a : Except Failure α).mapError Stop.failed = .ok a := rfl

theorem caught_signalled (r : Except Failure (Option Value)) :
    caught (signalled r) = (r.map (·.getD .null)).mapError .failed := by
  rcases r with f | ⟨_ | v⟩ <;> rfl

theorem signalled_map_some (x : Except Failure Value) :
    signalled (x.map some) = x.mapError .failed := by
  cases x <;> rfl

section Raising

variable {s} {e left right : Expr} {path : String}

/-- The raising evaluation agrees with the other one where the signal is let through, and where it
is not. -/
def Agrees (s : Scope) (e : Expr) (path : String) : Prop :=
  raised s true e path = signalled (reach s e path) ∧
    raised s false e path = (eval s e path).mapError .failed

/-- A chain that is no target catches what it would raise as one. -/
theorem Agrees.of_chain (target : raised s true e path = signalled (reach s e path))
    (operand : raised s false e path = caught (raised s true e path)) : Agrees s e path := by
  refine ⟨target, ?_⟩
  rw [operand, target, caught_signalled, eval]

/-- What is no chain raises nothing of its own. -/
theorem Agrees.of_value {x : Except Failure Value} (value : reach s e path = x.map some)
    (raises : ∀ target, raised s target e path = x.mapError .failed) : Agrees s e path := by
  refine ⟨?_, ?_⟩
  · rw [raises, value, signalled_map_some]
  · rw [raises, eval, value]
    cases x <;> rfl

theorem Agrees.field (p : String) : Agrees s (.field p) path := by
  refine ⟨?_, ?_⟩
  · rw [raised, reach]
    cases (s.field p).isNull <;> rfl
  · rw [raised, eval, reach]
    cases h : s.field p <;> rfl

theorem Agrees.member (h : Agrees s e path) (name : String) : Agrees s (.member e name) path := by
  refine .of_chain ?_ ?_
  · rw [raised, reach, h.1]
    rcases reach s e path with f | ⟨_ | v⟩
    · rfl
    · rfl
    · simp only [bind, Except.bind, signalled, if_true]
      cases readMember s v name (path ++ "." ++ name) <;> rfl
  · rw [raised, raised]
    rfl

theorem Agrees.call {args : List Expr} (h : Agrees s e path) (name : String)
    (all : raisedAll s args (path ++ "." ++ name ++ "()") =
      (reachAll s args (path ++ "." ++ name ++ "()")).mapError .failed) :
    Agrees s (.call e name args) path := by
  refine .of_chain ?_ ?_
  · rw [raised, reach, h.1, all]
    rcases reach s e path with f | ⟨_ | v⟩
    · rfl
    · rfl
    · simp only [bind, Except.bind, signalled, if_true]
      rcases reachAll s args (path ++ "." ++ name ++ "()") with f | vs
      · rfl
      · simp only [mapError_ok]
        cases callMethod v name vs (path ++ "." ++ name) <;> rfl
  · rw [raised, raised]
    rfl

theorem Agrees.unary (h : Agrees s e path) (op : UnaryOp) : Agrees s (.unary op e) path := by
  refine .of_value (reach_unary s op e path) fun target => ?_
  rw [raised, h.2]
  cases eval s e path <;> rfl

theorem Agrees.binary (op : BinaryOp) (hleft : Agrees s left (path ++ ".left"))
    (hright : Agrees s right (path ++ ".right")) : Agrees s (.binary left op right) path := by
  refine .of_value (reach_binary s left op right path) fun target => ?_
  rw [raised, hleft.2, hright.2]
  cases eval s left (path ++ ".left") with
  | error f => rfl
  | ok a =>
      simp only [bind, Except.bind, mapError_ok]
      cases op.settled? a with
      | some v => rfl
      | none => cases eval s right (path ++ ".right") <;> rfl

end Raising

mutual
/-- The signal is caught by the innermost chain that it is raised in, whatever stands around it. -/
theorem agrees : ∀ (e : Expr) (path : String), Agrees s e path
  | .literal v, _ => .of_value (x := .ok v) rfl fun _ => by rw [raised]; rfl
  | .field p, _ => .field p
  | .root r, _ => .of_value (x := .ok (s.root r)) rfl fun _ => by rw [raised]; rfl
  | .member e name, path => (agrees e path).member name
  | .call e name args, path => (agrees e path).call name (raisedAll_eq args _)
  | .unary op e, path => (agrees e path).unary op
  | .binary left op right, _ => .binary op (agrees left _) (agrees right _)
theorem raisedAll_eq : ∀ (es : List Expr) (path : String),
    raisedAll s es path = (reachAll s es path).mapError .failed
  | [], path => by rw [raisedAll, reachAll]; rfl
  | e :: es, path => by
      rw [raisedAll, reachAll, (agrees e path).2, raisedAll_eq es path, eval]
      cases reach s e path with
      | error f => rfl
      | ok v => cases reachAll s es path <;> rfl
end

/-! ## Chains -/

/-- A member or a call behind the target of a chain. -/
inductive Suffix where
  | member (name : String)
  | call (name : String) (args : List Expr)

/-- What a chain begins at. -/
def base : Expr → Expr
  | .member e _ => e.base
  | .call e _ _ => e.base
  | e => e

/-- The members and calls of a chain, from its beginning. -/
def suffixes : Expr → List Suffix
  | .member e name => e.suffixes ++ [.member name]
  | .call e name args => e.suffixes ++ [.call name args]
  | _ => []

/-- Whether a chain begins at a field whose value is null. -/
def isNullChain (s : Scope) (e : Expr) : Bool :=
  match e.base with
  | .field p => (s.field p).isNull
  | _ => false

/-- The value of a member or a call of `v`: the arguments are evaluated from the left and then the
method is called. -/
def Suffix.apply (s : Scope) (path : String) (v : Value) : Suffix → Except Failure Value
  | .member name => readMember s v name (path ++ "." ++ name)
  | .call name args => do
      let vs ← args.mapM fun arg => eval s arg (path ++ "." ++ name ++ "()")
      callMethod v name vs (path ++ "." ++ name)

theorem reachAll_eq_mapM (args : List Expr) (path : String) :
    reachAll s args path = args.mapM fun arg => eval s arg path := by
  induction args with
  | nil => rw [reachAll]; rfl
  | cons e es ih =>
      rw [reachAll, ih, List.mapM_cons, eval]
      cases reach s e path <;> rfl

theorem isNullChain_member (e : Expr) (name : String) :
    isNullChain s (.member e name) = isNullChain s e := rfl

theorem isNullChain_call (e : Expr) (name : String) (args : List Expr) :
    isNullChain s (.call e name args) = isNullChain s e := rfl

/-- A member or a call is applied to the value of what it stands behind, and to nothing where there
is none. -/
theorem reach_member (e : Expr) (name path : String) : reach s (.member e name) path =
    (reach s e path).bind fun
      | none => .ok none
      | some v => (Suffix.apply s path v (.member name)).map some := by
  rw [reach]
  rcases reach s e path with f | ⟨_ | v⟩
  · rfl
  · rfl
  · simp only [bind, Except.bind, Suffix.apply]
    cases readMember s v name (path ++ "." ++ name) <;> rfl

theorem reach_call (e : Expr) (name : String) (args : List Expr) (path : String) :
    reach s (.call e name args) path = (reach s e path).bind fun
      | none => .ok none
      | some v => (Suffix.apply s path v (.call name args)).map some := by
  rw [reach, reachAll_eq_mapM]
  rcases reach s e path with f | ⟨_ | v⟩
  · rfl
  · rfl
  · simp only [bind, Except.bind, Suffix.apply]
    rcases args.mapM (fun arg => eval s arg (path ++ "." ++ name ++ "()")) with f | vs
    · rfl
    · dsimp only
      cases callMethod v name vs (path ++ "." ++ name) <;> rfl

/-- One more member or call behind a chain is one more step of its evaluation. -/
theorem bind_behind (null : Bool) (x : Except Failure Value) (steps : List Suffix) (last : Suffix)
    (path : String) :
    (if null then .ok none
      else (x.bind (steps.foldlM (Suffix.apply s path))).map some : Except Failure _).bind (fun
        | none => .ok none
        | some v => (last.apply s path v).map some) =
      if null then .ok none
      else (x.bind ((steps ++ [last]).foldlM (Suffix.apply s path))).map some := by
  cases null with
  | true => rfl
  | false =>
      cases x with
      | error f => rfl
      | ok v =>
          simp only [Except.bind, List.foldlM_append]
          cases steps.foldlM (Suffix.apply s path) v with
          | error f => rfl
          | ok w =>
              simp only [Bool.false_eq_true, if_false, bind, Except.bind, Except.map,
                List.foldlM_cons, List.foldlM_nil]
              cases last.apply s path w <;> rfl

/-- What is no chain is its own beginning. -/
theorem reach_of_value {e : Expr} {path : String} {x : Except Failure Value}
    (value : reach s e path = x.map some) :
    reach s e path =
      if false then .ok none
      else ((eval s e path).bind ([].foldlM (Suffix.apply s path))).map some := by
  rw [eval, value]
  cases x <;> rfl

/-- The value of a chain as a target, nothing where it begins at a field that is null. -/
theorem reach_chain : ∀ (e : Expr) (path : String), reach s e path =
    if isNullChain s e then .ok none
    else ((eval s e.base path).bind (e.suffixes.foldlM (Suffix.apply s path))).map some
  | .literal _, _ => rfl
  | .root _, _ => rfl
  | .field p, path => by
      change reach s (.field p) path = if (s.field p).isNull then .ok none else
        ((eval s (.field p) path).bind ([].foldlM (Suffix.apply s path))).map some
      rw [eval, reach]
      cases (s.field p).isNull <;> rfl
  | .member e name, path => by
      rw [reach_member, reach_chain e path, bind_behind, isNullChain_member, base, suffixes]
  | .call e name args, path => by
      rw [reach_call, reach_chain e path, bind_behind, isNullChain_call, base, suffixes]
  | .unary op e, path => reach_of_value s (reach_unary s op e path)
  | .binary left op right, path => reach_of_value s (reach_binary s left op right path)

/-! ## Steps -/

/-- The values of arguments, evaluated from the left, or the failure of the first one that fails. -/
inductive Arguments (s : Scope) (path : String) : List Expr → Except Failure (List Value) → Prop
  | nil : Arguments s path [] (.ok [])
  | cons {e : Expr} {es : List Expr} {v : Value} {vs : List Value} :
      eval s e path = .ok v → Arguments s path es (.ok vs) →
      Arguments s path (e :: es) (.ok (v :: vs))
  | here {e : Expr} {es : List Expr} {f : Failure} :
      eval s e path = .error f → Arguments s path (e :: es) (.error f)
  | later {e : Expr} {es : List Expr} {v : Value} {f : Failure} :
      eval s e path = .ok v → Arguments s path es (.error f) →
      Arguments s path (e :: es) (.error f)

/-- A value that is neither null nor a map. -/
def IsOther (v : Value) : Prop :=
  v ≠ .null ∧ v.fields? = none

/-- What one member or call behind a value leads to. -/
inductive Step (s : Scope) (path : String) : Value → Suffix → Except Failure Value → Prop
  | key {fields : Fields} {name : String} {w : Value} :
      fields.get? name = some w → Step s path (.map fields) (.member name) (.ok w)
  | noKey {fields : Fields} {name : String} :
      fields.get? name = none → Step s path (.map fields) (.member name) (.ok .null)
  | ofNull {name : String} :
      Step s path .null (.member name)
        (.error (.refused (.memberOfNull name) (path ++ "." ++ name)))
  | hidden {v : Value} {name : String} :
      IsOther v → name.toList.head? = some '_' →
      Step s path v (.member name) (.error (.refused (.hiddenMember name) (path ++ "." ++ name)))
  | read {v w : Value} {name : String} :
      IsOther v → name.toList.head? ≠ some '_' → s.attributeOf v name = .ok w →
      Step s path v (.member name) (.ok w)
  | unreadable {v : Value} {name : String} {fault : Fault} :
      IsOther v → name.toList.head? ≠ some '_' → s.attributeOf v name = .error fault →
      Step s path v (.member name) (.error (.value fault))
  | argument {v : Value} {name : String} {args : List Expr} {f : Failure} :
      Arguments s (path ++ "." ++ name ++ "()") args (.error f) →
      Step s path v (.call name args) (.error f)
  | called {v w : Value} {name : String} {args : List Expr} {vs : List Value} :
      Arguments s (path ++ "." ++ name ++ "()") args (.ok vs) →
      Method.call? v name vs = some (.ok w) → Step s path v (.call name args) (.ok w)
  | fails {v : Value} {name : String} {args : List Expr} {vs : List Value} {fault : Fault} :
      Arguments s (path ++ "." ++ name ++ "()") args (.ok vs) →
      Method.call? v name vs = some (.error fault) →
      Step s path v (.call name args) (.error (.value fault))
  | unknown {v : Value} {name : String} {args : List Expr} {vs : List Value} :
      Arguments s (path ++ "." ++ name ++ "()") args (.ok vs) → Method.call? v name vs = none →
      Step s path v (.call name args)
        (.error (.refused (.unknownMethod name) (path ++ "." ++ name)))

theorem Arguments.mapM {path : String} {es : List Expr} {r : Except Failure (List Value)}
    (h : Arguments s path es r) : es.mapM (fun e => eval s e path) = r := by
  induction h with
  | nil => rfl
  | cons head _ ih =>
      rw [List.mapM_cons, head, ih]
      rfl
  | here head =>
      rw [List.mapM_cons, head]
      rfl
  | later head _ ih =>
      rw [List.mapM_cons, head, ih]
      rfl

theorem exists_arguments (path : String) (es : List Expr) : ∃ r, Arguments s path es r := by
  induction es with
  | nil => exact ⟨_, .nil⟩
  | cons e es ih =>
      obtain ⟨r, h⟩ := ih
      cases head : eval s e path with
      | error f => exact ⟨_, .here head⟩
      | ok v =>
          cases r with
          | error f => exact ⟨_, .later head h⟩
          | ok vs => exact ⟨_, .cons head h⟩

theorem startsWith_underscore_iff {cs : List Char} :
    Text.startsWith ['_'] cs = true ↔ cs.head? = some '_' := by
  rw [Text.startsWith_iff, List.head?_eq_some_iff]
  rfl

theorem readMember_other {v : Value} (other : IsOther v) (name path : String) :
    readMember s v name path =
      if Text.startsWith ['_'] name.toList then .error (.refused (.hiddenMember name) path)
      else lift (s.attributeOf v name) := by
  cases v with
  | null => exact absurd rfl other.1
  | map fields => cases other.2
  | _ => rfl

/-- What a step leads to is what the evaluation makes of it. -/
theorem Step.apply {path : String} {v : Value} {x : Suffix} {r : Except Failure Value}
    (h : Step s path v x r) : x.apply s path v = r := by
  cases h with
  | key found => rw [Suffix.apply, readMember, found, Option.getD_some]
  | noKey found => rw [Suffix.apply, readMember, found, Option.getD_none]
  | ofNull => rfl
  | hidden other underscore =>
      rw [Suffix.apply, readMember_other s other, if_pos (startsWith_underscore_iff.mpr underscore)]
  | read other plain value =>
      rw [Suffix.apply, readMember_other s other,
        if_neg fun h => plain (startsWith_underscore_iff.mp h), value]
      rfl
  | unreadable other plain fault =>
      rw [Suffix.apply, readMember_other s other,
        if_neg fun h => plain (startsWith_underscore_iff.mp h), fault]
      rfl
  | argument args =>
      rw [Suffix.apply, args.mapM]
      rfl
  | called args method =>
      rw [Suffix.apply, args.mapM]
      simp only [bind, Except.bind, callMethod, method]
      rfl
  | fails args method =>
      rw [Suffix.apply, args.mapM]
      simp only [bind, Except.bind, callMethod, method]
      rfl
  | unknown args method =>
      rw [Suffix.apply, args.mapM]
      simp only [bind, Except.bind, callMethod, method]

theorem exists_step_member (path : String) (v : Value) (name : String) :
    ∃ r, Step s path v (.member name) r := by
  by_cases null : v = .null
  · subst null
    exact ⟨_, .ofNull⟩
  cases fields : v.fields? with
  | some fields =>
      cases v with
      | map _ =>
          cases found : Fields.get? name ‹_› with
          | some w => exact ⟨_, .key found⟩
          | none => exact ⟨_, .noKey found⟩
      | _ => cases fields
  | none =>
      have other : IsOther v := ⟨null, fields⟩
      by_cases underscore : name.toList.head? = some '_'
      · exact ⟨_, .hidden other underscore⟩
      · cases read : s.attributeOf v name with
        | ok w => exact ⟨_, .read other underscore read⟩
        | error fault => exact ⟨_, .unreadable other underscore read⟩

theorem exists_step_call (path : String) (v : Value) (name : String) (args : List Expr) :
    ∃ r, Step s path v (.call name args) r := by
  obtain ⟨values, h⟩ := exists_arguments s (path ++ "." ++ name ++ "()") args
  cases values with
  | error f => exact ⟨_, .argument h⟩
  | ok vs =>
      rcases method : Method.call? v name vs with _ | fault | w
      · exact ⟨_, .unknown h method⟩
      · exact ⟨_, .fails h method⟩
      · exact ⟨_, .called h method⟩

theorem step_iff {path : String} {v : Value} {x : Suffix} {r : Except Failure Value} :
    Step s path v x r ↔ x.apply s path v = r := by
  constructor
  · exact Step.apply s
  · rintro rfl
    have leads : ∃ r, Step s path v x r := by
      cases x with
      | member name => exact exists_step_member s path v name
      | call name args => exact exists_step_call s path v name args
    obtain ⟨r, h⟩ := leads
    rw [h.apply]
    exact h

/-- A field that is null raises its signal for the chain that begins at it and for no other: as a
target that chain raises it, and everywhere else, in the arguments of another chain too, it is null
without any of its arguments.  Every other chain applies its members and calls from its beginning
on, each to the value before it: what that leads to is a step, and null has neither members nor
methods. -/
theorem null_confined (s : Scope) (e : Expr) (path : String) :
    raised s true e path = (if isNullChain s e then .error .nullChain
      else (eval s e path).mapError .failed) ∧
    raised s false e path = (eval s e path).mapError .failed ∧
    eval s e path = (if isNullChain s e then .ok .null
      else (eval s e.base path).bind (e.suffixes.foldlM (Suffix.apply s path))) ∧
    (∀ (v : Value) (x : Suffix) (r : Except Failure Value),
      Step s path v x r ↔ Suffix.apply s path v x = r) ∧
    (∀ name, ∃ c : Cause, c.kind = .type ∧
      Suffix.apply s path .null (.member name) = .error (.refused c (path ++ "." ++ name))) ∧
    ∀ name args, ∃ c : Cause, c.kind = .method ∧
      Suffix.apply s path .null (.call name args) =
        (args.mapM fun arg => eval s arg (path ++ "." ++ name ++ "()")).bind fun _ =>
          .error (.refused c (path ++ "." ++ name)) := by
  obtain ⟨raises, caught⟩ := agrees s e path
  refine ⟨?signal, caught, ?chain, fun v x r => step_iff s,
    fun name => ⟨.memberOfNull name, rfl, rfl⟩, fun name args => ⟨.unknownMethod name, rfl, rfl⟩⟩
  case signal =>
    rw [raises, eval, reach_chain]
    cases isNullChain s e with
    | true => rfl
    | false => cases (eval s e.base path).bind (e.suffixes.foldlM (Suffix.apply s path)) <;> rfl
  case chain =>
    rw [eval, reach_chain]
    cases isNullChain s e with
    | true => rfl
    | false => cases (eval s e.base path).bind (e.suffixes.foldlM (Suffix.apply s path)) <;> rfl

/-- The argument would fail: null has no methods. -/
example :
    eval {} (.call (.field "gone") "upper" [.call (.literal .null) "nope" []]) "$" = .ok .null :=
  rfl

/-- A person who is no map. -/
def person : Value :=
  .object [("name", .text "Sam")]

/-- A context with a person. -/
def personScope : Scope :=
  { toSurroundings := StandIn.around (.map [("user", person)]) }

/-- The first letter of the name of the person in the context. -/
def initial : Expr :=
  .call (.member (.member (.root .context) "user") "name") "charAt" [.literal (.int 0)]

/-- A chain over a map, an object and a text: a key, an attribute and a method. -/
theorem initial_confined :
    Step personScope "$" (.map [("user", person)]) (.member "user") (.ok person) ∧
    Step personScope "$" person (.member "name") (.ok (.text "Sam")) ∧
    Step personScope "$" (.text "Sam") (.call "charAt" [.literal (.int 0)]) (.ok (.text "S")) ∧
    eval personScope initial "$" = .ok (.text "S") ∧
    raised personScope true initial "$" = .ok (.text "S") := by
  obtain ⟨signal, -, chain, steps, -, -⟩ := null_confined personScope initial "$"
  have user : Step personScope "$" (.map [("user", person)]) (.member "user") (.ok person) :=
    .key rfl
  have name : Step personScope "$" person (.member "name") (.ok (.text "Sam")) :=
    .read ⟨nofun, rfl⟩ (by decide) rfl
  have letter : Step personScope "$" (.text "Sam") (.call "charAt" [.literal (.int 0)])
      (.ok (.text "S")) :=
    .called (.cons rfl .nil) (by rfl)
  have value : eval personScope initial "$" = .ok (.text "S") := by
    have begins : eval personScope initial.base "$" = .ok (.map [("user", person)]) := rfl
    have suffixes : initial.suffixes =
        [.member "user", .member "name", .call "charAt" [.literal (.int 0)]] := rfl
    rw [chain, begins, suffixes]
    simp only [Except.bind, List.foldlM_cons, List.foldlM_nil, (steps _ _ _).mp user,
      (steps _ _ _).mp name, (steps _ _ _).mp letter, bind, pure, Except.pure]
    rfl
  refine ⟨user, name, letter, value, ?_⟩
  rw [signal, value]
  rfl

end Toolbar.Expr
