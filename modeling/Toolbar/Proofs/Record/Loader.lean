/-
# `Toolbar.Proofs.Record.Loader` — who answers a resolution

A resolution asks for records and looks at its base record, and what it comes to depends on the
answers.  A loader gives them, in any way: it has a state of its own, so it may give another record
each time it is asked, or none, and the base record may be another one after each fetch.

    Loader          gives the base record and answers fetches
    under           what a resolution comes to under a loader, and the state of the loader then
    heard           a resolution that also tells the answers that it was given
    Loader.replay   gives these answers again
    asks            what a resolution asks for when the store itself answers
    Loader.trace    the store itself, with a list of what it was asked for
-/
import Toolbar.Record.Resolution

namespace Toolbar

/-- Gives the base record and answers fetches, in a state of its own. -/
structure Loader (σ : Type) where
  base : σ → Value
  fetch : String → String → σ → Option Value × σ

namespace Resolution

variable {σ α β : Type}

/-- What a resolution comes to under a loader, and the state of the loader then. -/
def under (l : Loader σ) : Resolution α → σ → α × σ
  | done a, s => (a, s)
  | look next, s => under l (next (l.base s)) s
  | fetch entity id next, s =>
      under l (next (l.fetch entity id s).1) (l.fetch entity id s).2

theorem under_bind (l : Loader σ) (r : Resolution α) (f : α → Resolution β) (s : σ) :
    (r.bind f).under l s = (f (r.under l s).1).under l (r.under l s).2 := by
  induction r generalizing s with
  | done a => rfl
  | look next ih => exact ih (l.base s) s
  | fetch entity id next ih => exact ih (l.fetch entity id s).1 (l.fetch entity id s).2

/-- Work with faults, followed by work on its result, comes to a fault or to what follows. -/
theorem under_run_bind (l : Loader σ) (x : ExceptT Fault Resolution α)
    (f : α → ExceptT Fault Resolution β) (s : σ) :
    (x >>= f).run.under l s =
      match x.run.under l s with
      | (.ok a, s) => (f a).run.under l s
      | (.error e, s) => (.error e, s) := by
  show (x.run.bind (ExceptT.bindCont f)).under l s = _
  rw [under_bind]
  rcases x.run.under l s with ⟨_ | _, _⟩ <;> rfl

/-- Work with faults, followed by a change of its result. -/
theorem under_run_bind_pure (l : Loader σ) (x : ExceptT Fault Resolution α) (f : α → β) (s : σ) :
    (x >>= fun a => pure (f a)).run.under l s =
      ((x.run.under l s).1.map f, (x.run.under l s).2) := by
  rw [under_run_bind]
  rcases x.run.under l s with ⟨_ | _, _⟩ <;> rfl

/-- Work without faults, among work with faults. -/
theorem under_run_lift (l : Loader σ) (r : Resolution α) (s : σ) :
    (ExceptT.lift r : ExceptT Fault Resolution α).run.under l s =
      (.ok (r.under l s).1, (r.under l s).2) := by
  show (r.bind fun a => done (Except.ok a)).under l s = _
  rw [under_bind]
  rfl

/-- Loaders that stay alike, with one base record and one answer to each fetch, come to one
result. -/
theorem under_alike {τ : Type} (l : Loader σ) (l' : Loader τ) (Alike : σ → τ → Prop)
    (hbase : ∀ s t, Alike s t → l.base s = l'.base t)
    (hfetch : ∀ e i s t, Alike s t → (l.fetch e i s).1 = (l'.fetch e i t).1 ∧
      Alike (l.fetch e i s).2 (l'.fetch e i t).2)
    (r : Resolution α) {s : σ} {t : τ} (alike : Alike s t) :
    (r.under l s).1 = (r.under l' t).1 ∧ Alike (r.under l s).2 (r.under l' t).2 := by
  induction r generalizing s t with
  | done a => exact ⟨rfl, alike⟩
  | look next ih =>
      rw [under, under, hbase s t alike]
      exact ih _ alike
  | fetch entity id next ih =>
      obtain ⟨hanswer, alike⟩ := hfetch entity id s t alike
      rw [under, under, hanswer]
      exact ih _ alike

/-! ## Answers that were heard -/

/-- The same work, which also tells the answers that it was given. -/
def heard : Resolution α → Resolution (α × List (Option Value))
  | done a => done (a, [])
  | look next => look fun v => (next v).heard
  | fetch entity id next => fetch entity id fun answer =>
      (next answer).heard.bind fun (a, answers) => done (a, answer :: answers)

theorem bind_assoc {γ : Type} (r : Resolution α) (f : α → Resolution β) (g : β → Resolution γ) :
    (r.bind f).bind g = r.bind fun a => (f a).bind g := by
  induction r with
  | done a => rfl
  | look next ih => exact congrArg look (funext ih)
  | fetch entity id next ih => exact congrArg (fetch entity id) (funext ih)

/-- Apart from the answers it is the work itself. -/
theorem heard_bind_fst (r : Resolution α) : (r.heard.bind fun x => done x.1) = r := by
  induction r with
  | done a => rfl
  | look next ih => exact congrArg look (funext ih)
  | fetch entity id next ih =>
      refine congrArg (fetch entity id) (funext fun answer => ?_)
      exact (bind_assoc _ _ _).trans (ih answer)

/-! ## What is asked for -/

/-- What a resolution asks for when the store itself answers each fetch. -/
def asks (base : Value) (store : String → String → Option Value) :
    Resolution α → List (String × String)
  | done _ => []
  | look next => asks base store (next base)
  | fetch entity id next => (entity, id) :: asks base store (next (store entity id))

end Resolution

/-- Answers by the store itself, and lists what it was asked for. -/
def Loader.trace (base : Value) (store : String → String → Option Value) :
    Loader (List (String × String)) where
  base := fun _ => base
  fetch := fun entity id asked => (store entity id, asked ++ [(entity, id)])

theorem Resolution.under_trace {α : Type} (base : Value) (store : String → String → Option Value)
    (r : Resolution α) (asked : List (String × String)) :
    r.under (.trace base store) asked = (r.direct base store, asked ++ r.asks base store) := by
  induction r generalizing asked with
  | done a => exact congrArg (Prod.mk a) (List.append_nil asked).symm
  | look next ih => exact ih base asked
  | fetch entity id next ih =>
      refine (ih (store entity id) (asked ++ [(entity, id)])).trans ?_
      rw [List.append_assoc]
      rfl

/-- Gives one base record, and answers from a list; when this is empty, there are no records. -/
def Loader.replay (base : Value) : Loader (List (Option Value)) where
  base := fun _ => base
  fetch := fun _ _ answers => (answers.head?.join, answers.tail)

end Toolbar
