/-
# `Toolbar.Proofs.Pipeline.Restart` — a reload is a fresh start

A pipeline that works alone on its cache has every entry of the cache in its scope, whatever loads
failed and wherever resolutions broke off.  So a reload finds the cache empty, as a pipeline does
that was just built; and nothing else that the pipeline has kept is read by the new cycle.

    Solitary   where a pipeline can be between its deeds, the store changing as it likes
    Face       what shows of a pipeline
    Renewed    the face is that of any new pipeline that has run once
-/
import Toolbar.Proofs.Pipeline.Deed

namespace Toolbar

namespace Pipeline

/-- What shows of a pipeline. -/
structure Face where
  stage : Stage
  error : Option String
  record : Value
  buttons : List Button.Shown

/-- What shows of a pipeline of a session. -/
def face (n : Nat) (s : Session) : Face where
  stage := (s.pipeline n).stage
  error := (s.pipeline n).error
  record := s.shelf.get? (s.pipeline n).record
  buttons := (s.pipeline n).buttons

section Alone

variable (source : Source) (n : Nat)

/-- The states between the deeds of a pipeline that works alone on a cache.  It was built when the
cache was empty; between deeds the store changes. -/
inductive Solitary : Shared Nat Session → Prop
  | built {s : Shared Nat Session} {p : Pipeline} : (∀ key, s.cache.get? key = none) →
      s.outer.pipelines[n]? = some p.built → Solitary s
  | deed {s t : Shared Nat Session} {number : Nat} (d : Deed) : Solitary s →
      source.Alone number (fun u _ => u = t) ((d.work n).run source.supplier number s) →
      Solitary t
  | store {s t : Shared Nat Session} : Solitary s → Between s t → Solitary t

/-- Where the store answers the same, any new pipeline of the same form and configurations that runs
once over an empty cache shows the same and returns the same buttons. -/
def Renewed (s : Shared Nat Session) (buttons : List Button.Shown) : Prop :=
  ∀ (other : Source) (m number : Nat) (u : Shared Nat Session),
    u.outer.pipelines[m]? = some (s.outer.pipeline n).built →
    (∀ key, u.cache.get? key = none) →
    other.read u.outer.store = source.read s.outer.store →
    other.Alone number (fun t r => face m t.outer = face n s.outer ∧ r = .ok buttons)
      ((run m).run other.supplier number u)

variable {source n} {s : Shared Nat Session}

/-- The scope of a pipeline that works alone covers the cache. -/
theorem Solitary.owns (h : Solitary source n s) :
    ∃ p v, Owns source n p v s ∧ Covered n s := by
  induction h with
  | built empty has =>
      exact ⟨_, _, .of_built (.of_empty empty) has, fun key hkey => absurd (empty key) hkey⟩
  | deed d _ done ih =>
      obtain ⟨p, v, owns, covered⟩ := ih
      obtain ⟨t, -, ⟨⟨w, q, hq, -, -, hcovered⟩, rfl⟩, -⟩ := ((deed_alone owns d).and done).reaches
      exact ⟨q, w, hq, hcovered covered⟩
  | store _ between ih =>
      obtain ⟨p, v, owns, covered⟩ := ih
      refine ⟨p, v, owns.between between, fun key hkey => ?_⟩
      rw [between.cache] at hkey
      rw [between.scopes]
      exact covered key hkey

/-- Two runs over empty caches, of pipelines of the same form and configurations, show the same. -/
theorem Rerun.face_eq {other : Source} {m : Nat} {p q q' : Pipeline} {v v' : Value}
    {s s' t t' : Shared Nat Session} {r' : Except Fault (List Button.Shown)}
    {buttons : List Button.Shown} (h : Rerun source n p s t v q (.ok buttons))
    (h' : Rerun other m p.built s' t' v' q' r') (empty : ∀ key, s.cache.get? key = none)
    (empty' : ∀ key, s'.cache.get? key = none)
    (read : other.read s'.outer.store = source.read s.outer.store) :
    face m t'.outer = face n t.outer ∧ r' = .ok buttons := by
  have loaded := h.loaded
  have loaded' := h'.loaded
  rw [Settled.stock_of_empty empty] at loaded
  rw [Settled.stock_of_empty empty', read] at loaded'
  obtain ⟨hv, hstage, herror, hbuttons, hr⟩ := loaded.same loaded' rfl rfl rfl
  refine ⟨?_, hr⟩
  rw [face, face, h.toAt.pipeline, h'.toAt.pipeline, h.shows.get?, h'.shows.get?, hv, hstage,
    herror, hbuttons]

/-- **A reload is a fresh start.**  Between the deeds of a pipeline that works alone on its cache,
each entry is in its scope; so taking the form down leaves the cache empty.  A reload ends, and
unless it passes a fault on, the pipeline shows what any new one of its form and configurations shows
that runs once over an empty cache while the store answers the same. -/
theorem reload_restarts (h : Solitary source n s) (number : Nat) :
    (∀ key, s.cache.get? key ≠ none → key ∈ s.scopes.keys n) ∧
    source.Alone number (fun t _ => ∀ key, t.cache.get? key = none)
      ((tearDown n).run source.supplier number s) ∧
    source.Alone number (fun t r => ∀ buttons, r = .ok buttons → Renewed source n t buttons)
      ((reload n).run source.supplier number s) := by
  obtain ⟨p, v, owns, covered⟩ := h.owns
  refine ⟨covered, (tearDown_alone owns).mono fun t _ ht => ht.2 covered, ?_⟩
  refine (reload_alone owns.toStands owns.settled).mono ?_
  rintro t _ ⟨w, q, hrun⟩ buttons rfl other m number' u has empty read
  rw [hrun.toAt.pipeline, hrun.loaded.built] at has
  have fresh : Stands other.supply m p.built u := ⟨(Settled.of_empty empty).coherent, has⟩
  refine (run_alone fresh (.of_empty empty)).mono ?_
  rintro t' r' ⟨w', q', hfresh⟩
  exact hrun.face_eq hfresh covered.left empty (read.trans hrun.read)

end Alone

/-- A store of one account. -/
def accounts (name : String) : Store :=
  { records := [("account", [("a1", .map [("name", .text name)])])] }

/-- The form of the account, with a button that names it. -/
def accountForm : Pipeline :=
  { entity := "account", recordId := some "a1", configs := [{ label := .text "\x7bname\x7d" }] }

def accountSource : Source :=
  .ofSession 5 (.int 1)

/-- The form before its run, and how this ends. -/
def opened : Shared Nat Session :=
  { outer := { store := accounts "Acme", pipelines := [accountForm] } }

def openedRun : Shared Nat Session × Progress Nat StoreFault Session Unit :=
  (Deed.work 0 (.call .run)).run accountSource.supplier 0 opened

/-- The account has got another name. -/
def renamed : Shared Nat Session :=
  { openedRun.1 with outer := { openedRun.1.outer with store := accounts "Zenith" } }

theorem renamed_restarts : (∀ key, renamed.cache.get? key ≠ none → key ∈ renamed.scopes.keys 0) ∧
    accountSource.Alone 1 (fun t _ => ∀ key, t.cache.get? key = none)
      ((tearDown 0).run accountSource.supplier 1 renamed) ∧
    accountSource.Alone 1 (fun t r => ∃ buttons, r = .ok buttons ∧
        buttons.map (·.config.label.text?) = [some "Zenith"] ∧
        Renewed accountSource 0 t buttons)
      ((reload 0).run accountSource.supplier 1 renamed) := by
  have ran : accountSource.Alone 0 (fun u _ => u = openedRun.1) openedRun :=
    .of_result (a := ()) (by decide +kernel) rfl
  have solitary : Solitary accountSource 0 renamed :=
    .store (.deed (.call .run) (.built (p := accountForm) (fun _ => rfl) rfl) ran)
      ⟨rfl, rfl, rfl, rfl, .refl _⟩
  obtain ⟨covered, emptied, renewed⟩ := reload_restarts solitary 1
  refine ⟨covered, emptied, ?_⟩
  have labels : ((reload 0).run accountSource.supplier 1 renamed).2.result?.map
      (·.toOption.map (·.map (·.config.label.text?))) = some (some [some "Zenith"]) := by
    decide +kernel
  obtain ⟨r, hr, hlabels⟩ := Option.map_eq_some_iff.mp labels
  have returned : accountSource.Alone 1 (fun _ r' => r' = r) _ := .of_result hr rfl
  refine (renewed.and returned).mono ?_
  rintro t r ⟨hrenewed, rfl⟩
  cases r with
  | error f => cases hlabels
  | ok buttons => exact ⟨buttons, rfl, Option.some.inj hlabels, hrenewed buttons rfl⟩

end Pipeline

end Toolbar
