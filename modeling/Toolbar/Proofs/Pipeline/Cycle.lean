/-
# `Toolbar.Proofs.Pipeline.Cycle` — what a cycle and a run can come to

    MakesOne, MakesEach    what configurations make about a record: buttons, or a fault
    Cycled                 how a cycle leaves the pipeline, and what it returns
    Ran                    how a load and the cycle behind it leave it

A cycle whose pipeline only drifts while it waits ends as `Cycled` says, and a run as `Ran` says,
whatever the store answers.  `At` is what both need and keep: the pipeline is there, and when its
record is loaded, the record lies where texts and conditions look for it.
-/
import Toolbar.Pipeline.Cycle
import Toolbar.Proofs.Session.Ending

namespace Toolbar

namespace Pipeline

/-- The record that conditions are about: the record of the form, or an empty one when that is no
record. -/
def conditionRecord : Value → Value
  | .map fields => .map fields
  | _ => .map []

/-! ## What configurations make -/

section Makes

variable (found : String → String → Option Value → Prop) (record : Value)
  (host : Action.Host)

/-- What a configuration may make: a fault of its texts, or a button if its condition holds. -/
inductive MakesOne (c : Button.Config) : Except Fault (Option Button.Shown) → Prop
  | fault {f : Fault} : c.resolve.run.Yields found record (.error f) → MakesOne c (.error f)
  | made {resolved : Button.Config} {shown : Bool} :
      c.resolve.run.Yields found record (.ok resolved) →
      (Expr.holdsFor true host.toSurroundings c.visibility).Yields found
        (conditionRecord record) shown →
      MakesOne c (.ok (if shown then some ⟨resolved⟩ else none))

/-- What configurations may make one after the other, up to the first fault. -/
inductive MakesEach : List Button.Config → Except Fault (List Button.Shown) → Prop
  | nil : MakesEach [] (.ok [])
  | fault {c : Button.Config} {cs : List Button.Config} {f : Fault} :
      MakesOne found record host c (.error f) → MakesEach (c :: cs) (.error f)
  | faultBehind {c : Button.Config} {cs : List Button.Config} {b : Option Button.Shown}
      {f : Fault} : MakesOne found record host c (.ok b) → MakesEach cs (.error f) →
      MakesEach (c :: cs) (.error f)
  | cons {c : Button.Config} {cs : List Button.Config} {b : Option Button.Shown}
      {bs : List Button.Shown} : MakesOne found record host c (.ok b) → MakesEach cs (.ok bs) →
      MakesEach (c :: cs) (.ok (b.toList ++ bs))

end Makes

/-- Within a cycle over configurations of a hash. -/
def hashed (p : Pipeline) (hash : String) : Pipeline :=
  { p.cycling with cycleHash := some hash }

/-- How a cycle about a record leaves a pipeline that drifts in its waits, and what it returns. -/
inductive Cycled (found : String → String → Option Value → Prop) (drift : Drift) (record : Value)
    (p : Pipeline) : Pipeline → Except Fault (List Button.Shown) → Prop
  | refused : p.mayStart = false → Cycled found drift record p p (.ok p.buttons)
  | unhashed {f : Fault} : p.mayStart = true → Button.Config.hash p.configs = .error f →
      Cycled found drift record p p.cycling (.error f)
  | unsorted {hash : String} {f : Fault} : p.mayStart = true →
      Button.Config.hash p.configs = .ok hash → Button.sortByPosition p.configs = .error f →
      Cycled found drift record p (p.hashed hash).cycleFailed (.ok [])
  | failed {hash : String} {sorted : List Button.Config} {f : Fault} {q : Pipeline} :
      p.mayStart = true → Button.Config.hash p.configs = .ok hash →
      Button.sortByPosition p.configs = .ok sorted →
      MakesEach found record p.host sorted (.error f) → drift.May (p.hashed hash) q →
      Cycled found drift record p q.cycleFailed (.ok [])
  | resolved {hash : String} {sorted : List Button.Config} {buttons : List Button.Shown}
      {q : Pipeline} : p.mayStart = true → Button.Config.hash p.configs = .ok hash →
      Button.sortByPosition p.configs = .ok sorted →
      MakesEach found record p.host sorted (.ok buttons) → drift.May (p.hashed hash) q →
      Cycled found drift record p (q.resolved buttons) (.ok buttons)

/-! ## Where a pipeline stands -/

/-- A pipeline of the session. -/
structure Stands (supply : Supply) (n : Nat) (p : Pipeline)
    (s : Shared Nat Session) : Prop where
  coherent : supply.Coherent s
  has : s.outer.pipelines[n]? = some p

/-- A pipeline of the session, and the record that is loaded for it. -/
structure At (supply : Supply) (n : Nat) (p : Pipeline) (record : Value)
    (s : Shared Nat Session) : Prop extends Stands supply n p s where
  texts : p.recordLoaded = true → s.outer.shelf.Shows record p.record
  conditions : p.recordLoaded = true → s.outer.shelf.Shows (conditionRecord record) p.evaluated

variable {supply : Supply} {drift : Drift} {n number : Nat} {p q : Pipeline}
  {record : Value} {s t : Shared Nat Session}

namespace Stands

theorem pipeline (h : Stands supply n p s) : s.outer.pipeline n = p :=
  Session.pipeline_of_getElem? h.has

theorem drifts (h : Stands supply n p s) (ht : supply.Drifts drift n s t) :
    ∃ q, Stands supply n q t ∧ drift.May p q := by
  obtain ⟨q, hq, hmay⟩ := ht.pipeline h.has
  exact ⟨q, ⟨ht.coherent, hq⟩, hmay⟩

theorem onward (h : Stands supply n p s) (ht : supply.Onward s t) :
    Stands supply n p t where
  coherent := ht.coherent
  has := by rw [ht.pipelines, h.has]

theorem change (h : Stands supply n p s) (f : Pipeline → Pipeline) :
    Stands supply n (f p) { s with outer := s.outer.onPipeline n f } where
  coherent := h.coherent.onPipeline n f
  has := by
    simp only [Session.onPipeline, List.getElem?_modify_eq, h.has]
    rfl

theorem shelve (h : Stands supply n p s) (v : Value) :
    Stands supply n p { s with outer := (s.outer.shelve v).1 } where
  coherent := h.coherent.shelve v
  has := h.has

/-- A pipeline without a record. -/
theorem unloaded (h : Stands supply n p s) (hp : p.recordLoaded = false) (record : Value) :
    At supply n p record s where
  toStands := h
  texts := fun hloaded => absurd (hp.symm.trans hloaded) Bool.false_ne_true
  conditions := fun hloaded => absurd (hp.symm.trans hloaded) Bool.false_ne_true

end Stands

/-- A pipeline of the session that has drifted with its record. -/
def Adrift (supply : Supply) (drift : Drift) (n : Nat) (p : Pipeline)
    (record : Value) (s : Shared Nat Session) : Prop :=
  ∃ q, At supply n q record s ∧ drift.May p q

namespace At

theorem drifts (h : At supply n p record s) (ht : supply.Drifts drift n s t) :
    Adrift supply drift n p record t := by
  obtain ⟨q, hq, hmay⟩ := h.toStands.drifts ht
  have keeps := drift.keeps hmay
  refine ⟨q, ⟨hq, fun hloaded => ?_, fun hloaded => ?_⟩, hmay⟩
  · rw [keeps.record]
    exact (h.texts (keeps.recordLoaded ▸ hloaded)).within ht.within
  · rw [keeps.evaluated]
    exact (h.conditions (keeps.recordLoaded ▸ hloaded)).within ht.within

theorem adrift (h : At supply n p record s) : Adrift supply drift n p record s :=
  ⟨p, h, drift.refl p⟩

/-- A change that leaves the record alone. -/
theorem change (h : At supply n p record s) {f : Pipeline → Pipeline}
    (hloaded : (f p).recordLoaded = p.recordLoaded) (hrecord : (f p).record = p.record)
    (hevaluated : (f p).evaluated = p.evaluated) :
    At supply n (f p) record { s with outer := s.outer.onPipeline n f } where
  toStands := h.toStands.change f
  texts := fun hp => hrecord ▸ h.texts (hloaded ▸ hp)
  conditions := fun hp => hevaluated ▸ h.conditions (hloaded ▸ hp)

end At

theorem Adrift.drifts (h : Adrift supply drift n p record s)
    (ht : supply.Drifts drift n s t) : Adrift supply drift n p record t := by
  obtain ⟨q, hq, hmay⟩ := h
  obtain ⟨q', hq', hmay'⟩ := hq.drifts ht
  exact ⟨q', hq', drift.trans hmay hmay'⟩

/-! ## A cycle -/

section Cycling

variable {during : Shared Nat Session → Prop}

theorem resolveOne_ends (c : Button.Config) (h : Adrift supply drift n p record s)
    (loaded : p.recordLoaded = true)
    (hduring : ∀ t, Adrift supply drift n p record t → during t) :
    supply.Ends drift n number during
      (fun t r => Adrift supply drift n p record t ∧
        MakesOne supply.Found record p.host c r) s.outer.shelf
      ((resolveOne n c).run supply.supplier number s) := by
  have ⟨q, hq, hmay⟩ := h
  have texts := hq.texts ((drift.keeps hmay).recordLoaded.trans loaded)
  rw [resolveOne, Work.run_pipeline, hq.pipeline]
  refine (Supply.resolve_ends _ hq.coherent texts
    fun t ht => hduring t (h.drifts ht)).bind fun t r ⟨ht, hr⟩ => ?_
  have h := h.drifts ht
  cases r with
  | error f => exact .finished (.refl _) ⟨h, .fault hr⟩
  | ok resolved =>
      have ⟨q, hq, hmay⟩ := h
      have conditions := hq.conditions ((drift.keeps hmay).recordLoaded.trans loaded)
      simp only [Work.run_pipeline, hq.pipeline, (drift.keeps hmay).host]
      refine (Supply.resolve_ends _ hq.coherent conditions
        fun u hu => hduring u (h.drifts hu)).bind fun u shown ⟨hu, hshown⟩ => ?_
      exact .finished (.refl _) ⟨h.drifts hu, .made hr hshown⟩

theorem resolveEach_ends (cs : List Button.Config) (h : Adrift supply drift n p record s)
    (loaded : p.recordLoaded = true)
    (hduring : ∀ t, Adrift supply drift n p record t → during t) :
    supply.Ends drift n number during
      (fun t r => Adrift supply drift n p record t ∧
        MakesEach supply.Found record p.host cs r) s.outer.shelf
      ((resolveEach n cs).run supply.supplier number s) := by
  induction cs generalizing s with
  | nil => exact .finished (.refl _) ⟨h, .nil⟩
  | cons c cs ih =>
      rw [resolveEach]
      refine (resolveOne_ends c h loaded hduring).bind fun t r ⟨ht, hr⟩ => ?_
      cases r with
      | error f => exact .finished (.refl _) ⟨ht, .fault hr⟩
      | ok b =>
          refine (ih ht).bind fun u r ⟨hu, hrest⟩ => ?_
          cases r with
          | error f => exact .finished (.refl _) ⟨hu, .faultBehind hr hrest⟩
          | ok bs => exact .finished (.refl _) ⟨hu, .cons hr hrest⟩

theorem cycle_ends (h : At supply n p record s)
    (hduring : ∀ t hash, Adrift supply drift n (p.hashed hash) record t → during t) :
    supply.Ends drift n number during
      (fun t r => ∃ q, At supply n q record t ∧ Cycled supply.Found drift record p q r)
      s.outer.shelf ((cycle n).run supply.supplier number s) := by
  rw [cycle, Work.run_pipeline, h.pipeline]
  cases hstart : p.mayStart with
  | false => exact .finished (.refl _) ⟨p, h, .refused hstart⟩
  | true =>
      have loaded : p.recordLoaded = true := (Bool.and_eq_true_iff.mp hstart).1
      have hcycling : At supply n p.cycling record _ := h.change (f := cycling) rfl rfl rfl
      simp only [Bool.not_true, Bool.false_eq_true, if_false, Work.run_modify]
      cases hhash : Button.Config.hash p.configs with
      | error f => exact .finished (.refl _) ⟨p.cycling, hcycling, .unhashed hstart hhash⟩
      | ok hash =>
          have hhashed : At supply n (p.hashed hash) record _ :=
            hcycling.change (f := fun p => { p with cycleHash := some hash }) rfl rfl rfl
          simp only [Work.run_modify]
          cases hsort : Button.sortByPosition p.configs with
          | error f =>
              exact .finished (.refl _) ⟨_, hhashed.change (f := cycleFailed) rfl rfl rfl,
                .unsorted hstart hhash hsort⟩
          | ok sorted =>
              refine (resolveEach_ends sorted hhashed.adrift loaded (hduring · hash)).bind
                fun t r ⟨⟨q, hq, hmay⟩, hr⟩ => ?_
              cases r with
              | error f =>
                  exact .finished (.refl _) ⟨_, hq.change (f := cycleFailed) rfl rfl rfl,
                    .failed hstart hhash hsort hr hmay⟩
              | ok buttons =>
                  exact .finished (.refl _) ⟨_, hq.change (f := (·.resolved buttons)) rfl rfl rfl,
                    .resolved hstart hhash hsort hr hmay⟩

end Cycling

/-! ## A load -/

/-- What follows the answer to the load of a record: a cycle, if it is no fault. -/
def afterLoad (n : Nat) : Except StoreFault (Option Nat) → Work (Except Fault (List Button.Shown))
  | .ok place => do
      Task.modify (Session.loadedPipeline n place)
      cycle n
  | .error f => do
      Task.modify (Session.failedPipelineLoad n f.text)
      let p ← Work.pipeline n
      return .ok p.buttons

/-- A run as its load and what follows the answer. -/
theorem run_eq (n : Nat) : run n = (do
    Task.modify (Session.onPipeline n loading)
    let p ← Work.pipeline n
    if Record.isNew p.recordId then
      Task.modify (Session.newPipelineRecord n)
      cycle n
    else .fetch (some n) p.entity (p.recordId.getD "") (afterLoad n)) := by
  refine congrArg (Task.change _) (congrArg Task.look (funext fun s => ?_))
  show Task.bind (if Record.isNew (s.outer.pipeline n).recordId then _ else _) _ =
    (if Record.isNew (s.outer.pipeline n).recordId then _ else _ : Work _)
  cases Record.isNew (s.outer.pipeline n).recordId with
  | true => rfl
  | false =>
      refine congrArg (Task.fetch (some n) _ _) (funext fun reply => ?_)
      cases reply <;> rfl

section

variable {sup : Supplier Nat StoreFault Session}

/-- A run about a new record has it at once. -/
theorem run_new (h : Record.isNew ((s.outer.onPipeline n loading).pipeline n).recordId = true) :
    (run n).run sup number s = (cycle n).run sup number
      { s with outer := (s.outer.onPipeline n loading).newPipelineRecord n } := by
  rw [run_eq, Work.run_modify, Work.run_pipeline, if_pos h]
  rfl

/-- A run about a stored record fetches it and goes on with the answer. -/
theorem run_stored (h : Record.isNew ((s.outer.onPipeline n loading).pipeline n).recordId = false) :
    (run n).run sup number s =
      (Task.fetch (some n) ((s.outer.onPipeline n loading).pipeline n).entity
        (((s.outer.onPipeline n loading).pipeline n).recordId.getD "") (afterLoad n)).run sup number
        { s with outer := s.outer.onPipeline n loading } := by
  rw [run_eq, Work.run_modify, Work.run_pipeline, if_neg (Bool.eq_false_iff.mp h)]

end

/-- How the answer to the load of a record leaves a pipeline, with its record, and what is
returned. -/
inductive Answered (supply : Supply) (drift : Drift) (entity id : String) (p : Pipeline) :
    Value → Pipeline → Except Fault (List Button.Shown) → Prop
  | failed {f : StoreFault} {v : Value} {place other : Option Nat} :
      supply.May entity id (.error f) →
      Answered supply drift entity id p v (p.loadFailed f.text place other) (.ok [])
  | loaded {v : Value} {place other : Option Nat} {q : Pipeline}
      {r : Except Fault (List Button.Shown)} : supply.May entity id (.ok v) →
      Cycled supply.Found drift v (p.loaded place other) q r →
      Answered supply drift entity id p v q r

/-- How a run leaves a pipeline, with its record, and what it returns, when the pipeline stays still
in its waits. -/
inductive Ran (supply : Supply) (p : Pipeline) :
    Value → Pipeline → Except Fault (List Button.Shown) → Prop
  | new {place : Nat} {q : Pipeline} {r : Except Fault (List Button.Shown)} :
      Record.isNew p.recordId = true →
      Cycled supply.Found .still (.map []) (p.loading.loaded (some place) (some place)) q r →
      Ran supply p (.map []) q r
  | stored {v : Value} {q : Pipeline} {r : Except Fault (List Button.Shown)} :
      Record.isNew p.recordId = false →
      Answered supply .still p.entity (p.recordId.getD "") p.loading v q r → Ran supply p v q r

theorem within_loadedPipeline (n : Nat) (place : Option Nat) (s : Session) :
    s.shelf.Within (s.loadedPipeline n place).shelf := by
  rw [Session.loadedPipeline]
  split
  · exact .refl _
  · exact Shelf.within_add s.shelf (.map [])

theorem within_newPipelineRecord (n : Nat) (s : Session) :
    s.shelf.Within (s.newPipelineRecord n).shelf :=
  Shelf.within_add s.shelf (.map [])

theorem within_failedPipelineLoad (n : Nat) (text : String) (s : Session) :
    s.shelf.Within (s.failedPipelineLoad n text).shelf :=
  (Shelf.within_add s.shelf (.map [])).trans (Shelf.within_add _ (.map []))

section Loading

/-- Another record is loaded for a pipeline. -/
theorem Stands.load (h : Stands supply n p s) {v : Value} {place other : Option Nat}
    (hplace : s.outer.shelf.Shows v place)
    (hother : s.outer.shelf.Shows (conditionRecord v) other) :
    At supply n (p.loaded place other) v
      { s with outer := s.outer.onPipeline n (·.loaded place other) } where
  toStands := h.change (·.loaded place other)
  texts := fun _ => hplace
  conditions := fun _ => hother

theorem Stands.loaded (h : Stands supply n p s) {v : Value} {place : Option Nat}
    (hplace : s.outer.shelf.Shows v place) : ∃ other, At supply n (p.loaded place other) v
      { s with outer := s.outer.loadedPipeline n place } := by
  have hget := hplace.get?
  simp only [Session.loadedPipeline]
  split
  next fields hmap =>
    have hv : conditionRecord v = v := by
      rw [← hget, hmap]
      rfl
    exact ⟨place, h.load hplace (by rw [hv]; exact hplace)⟩
  next hmap =>
    -- What is no map has no fields, and conditions see an empty record of its own.
    have hv : conditionRecord v = .map [] := by
      cases v with
      | map fields => exact absurd hget (hmap fields)
      | _ => rfl
    have hempty := Shelf.holds_add s.outer.shelf (.map [])
    refine ⟨_, (h.shelve (.map [])).load (hplace.within (Shelf.within_add _ _)) ?_⟩
    rw [hv]
    exact hempty

theorem Stands.new (h : Stands supply n p s) : ∃ place,
    At supply n (p.loaded (some place) (some place)) (.map [])
      { s with outer := s.outer.newPipelineRecord n } := by
  have hempty := Shelf.holds_add s.outer.shelf (.map [])
  exact ⟨_, (h.shelve (.map [])).load hempty hempty⟩

theorem Stands.failed (h : Stands supply n p s) (text : String) : ∃ place other,
    Stands supply n (p.loadFailed text place other)
      { s with outer := s.outer.failedPipelineLoad n text } ∧
    (s.outer.failedPipelineLoad n text).shelf.Shows (.map []) place := by
  have hempty := Shelf.holds_add s.outer.shelf (.map [])
  exact ⟨_, _, ((h.shelve (.map [])).shelve (.map [])).change (·.loadFailed text _ _),
    hempty.within (Shelf.within_add _ _)⟩

theorem afterLoad_ends {during : Shared Nat Session → Prop} {entity id : String}
    {reply : Except StoreFault (Option Nat)} (h : Stands supply n p s)
    (told : supply.Told s.outer.shelf entity id reply)
    (hduring : ∀ t v place other hash,
      Adrift supply drift n ((p.loaded place other).hashed hash) v t → during t) :
    supply.Ends drift n number during
      (fun t r => ∃ v q, At supply n q v t ∧ Answered supply drift entity id p v q r) s.outer.shelf
      ((afterLoad n reply).run supply.supplier number s) := by
  obtain ⟨a, hmay, htells⟩ := told
  rcases a with f | v
  · rcases reply with f' | place
    · cases htells
      obtain ⟨place, other, hfailed, -⟩ := h.failed f.text
      rw [afterLoad, Work.run_modify, Work.run_pipeline, hfailed.pipeline]
      exact .finished (within_failedPipelineLoad n f.text s.outer)
        ⟨.null, _, hfailed.unloaded rfl .null, .failed hmay⟩
    · exact htells.elim
  · -- Both a record and its absence are loaded; only the place that shows it differs.
    obtain ⟨place, rfl, hplace⟩ := htells.shows
    obtain ⟨other, hloaded⟩ := h.loaded hplace
    rw [afterLoad, Work.run_modify]
    have ends : supply.Ends drift n number during _ _ _ :=
      cycle_ends hloaded fun t hash => hduring t v place other hash
    refine (ends.mono (fun _ h => h) ?_).of_within (within_loadedPipeline n place s.outer)
    exact fun t r ⟨q, ht, hr⟩ => ⟨v, q, ht, .loaded hmay hr⟩

end Loading

/-! ## Calls -/

/-- A call by the form, or by the bus when a record was saved. -/
inductive Call where
  | run
  | reload
  | setConfigs (configs : List Button.Config)
  | saved (payload : Value)

/-- A call as work; the bus does not look at what it returns. -/
def Call.work (n : Nat) : Call → Work (Except Fault (List Button.Shown))
  | run => Pipeline.run n
  | reload => Pipeline.reload n
  | setConfigs configs => Pipeline.setConfigs n configs
  | saved payload => (onSaved n payload).bind fun _ => .done (.ok [])

/-- A pipeline that hears of its record reloads, and nobody looks at what this returns. -/
theorem saved_work {sup : Supplier Nat StoreFault Session} (payload : Value) :
    ((Call.saved payload).work n).run sup number s =
      if (s.outer.pipeline n).isAbout payload then
        ((reload n).bind fun _ => .done (.ok [])).run sup number s
      else (s, .finished (.ok [])) := by
  have hears : ((Call.saved payload).work n).run sup number s =
      ((if (s.outer.pipeline n).isAbout payload then (reload n).bind fun _ => .done ()
        else .done () : Work Unit).bind fun _ => .done (.ok [])).run sup number s := rfl
  rw [hears]
  split
  · rw [Task.bind_assoc]
    rfl
  · rfl

/-- How new configurations leave a pipeline, and what is returned. -/
inductive Replaced (supply : Supply) (drift : Drift) (record : Value) (p : Pipeline)
    (configs : List Button.Config) : Pipeline → Except Fault (List Button.Shown) → Prop
  | kept {hash : String} : p.stage = .resolved ∨ p.stage = .error →
      Button.Config.hash configs = .ok hash → p.cycleHash = some hash →
      Replaced supply drift record p configs p (.ok p.buttons)
  | unhashed {f : Fault} : p.stage = .resolved ∨ p.stage = .error →
      Button.Config.hash configs = .error f →
      Replaced supply drift record p configs p (.error f)
  | replaced {q : Pipeline} {r : Except Fault (List Button.Shown)} :
      (p.stage = .resolved ∨ p.stage = .error →
        ∃ hash, Button.Config.hash configs = .ok hash ∧ p.cycleHash ≠ some hash) →
      Cycled supply.Found drift record { p with configs } q r →
      Replaced supply drift record p configs q r

section Calling

theorem run_ends (h : Stands supply n p s) :
    supply.Ends .still n number (fun _ => True)
      (fun t r => ∃ v q, At supply n q v t ∧ Ran supply p v q r) s.outer.shelf
      ((run n).run supply.supplier number s) := by
  have hloading := h.change loading
  cases hnew : Record.isNew p.recordId with
  | true =>
      have hpipeline := hloading.pipeline
      rw [run_new (by rw [hpipeline]; exact hnew)]
      obtain ⟨place, hat⟩ := hloading.new
      have ends : supply.Ends .still n number (fun _ => True) _ _ _ :=
        cycle_ends hat fun _ _ _ => trivial
      refine (ends.mono (fun _ h => h) ?_).of_within (within_newPipelineRecord n _)
      exact fun t r ⟨q, ht, hr⟩ => ⟨.map [], q, ht, .new hnew hr⟩
  | false =>
      have hpipeline := hloading.pipeline
      rw [run_stored (by rw [hpipeline]; exact hnew), hpipeline]
      refine Supply.fetch_ends hloading.coherent (fun _ _ => trivial) fun t reply ht told => ?_
      obtain ⟨_, hstill, rfl⟩ := hloading.drifts ht
      refine (afterLoad_ends hstill told fun _ _ _ _ _ _ => trivial).mono (fun _ h => h) ?_
      exact fun t r ⟨v, q, ht, hr⟩ => ⟨v, q, ht, .stored hnew hr⟩

/-- What a pipeline has fetched is forgotten. -/
theorem Stands.leave (h : Stands supply n p s) :
    Stands supply n p ((Move.leave n).apply s).1 :=
  h.onward (h.coherent.invalidate _ _)

theorem reload_ends (h : Stands supply n p s) :
    supply.Ends .still n number (fun _ => True)
      (fun t r => ∃ v q, At supply n q v t ∧ Ran supply p v q r) s.outer.shelf
      ((reload n).run supply.supplier number s) :=
  run_ends h.leave

theorem setConfigs_ends {during : Shared Nat Session → Prop} (configs : List Button.Config)
    (h : At supply n p record s)
    (hduring : ∀ t hash,
      Adrift supply drift n ({ p with configs }.hashed hash) record t → during t) :
    supply.Ends drift n number during
      (fun t r => ∃ q, At supply n q record t ∧ Replaced supply drift record p configs q r)
      s.outer.shelf ((setConfigs n configs).run supply.supplier number s) := by
  have hconfigs : At supply n { p with configs } record _ :=
    h.change (f := fun p => { p with configs }) rfl rfl rfl
  -- Two ways lead here: from rest with another hash, and from a stage that asks for none.
  have goes : (p.stage = .resolved ∨ p.stage = .error →
        ∃ hash, Button.Config.hash configs = .ok hash ∧ p.cycleHash ≠ some hash) →
      supply.Ends drift n number during
        (fun t r => ∃ q, At supply n q record t ∧
          Replaced supply drift record p configs q r) s.outer.shelf
        ((replaceConfigs n configs).run supply.supplier number s) := by
    intro hdiffers
    rw [replaceConfigs, Work.run_modify]
    refine (cycle_ends hconfigs hduring).mono (fun _ h => h) ?_
    exact fun t r ⟨q, ht, hr⟩ => ⟨q, ht, .replaced hdiffers hr⟩
  rw [setConfigs, Work.run_pipeline, h.pipeline]
  by_cases hstage : p.stage = .resolved ∨ p.stage = .error
  · rw [if_pos (by simpa using hstage)]
    cases hhash : Button.Config.hash configs with
    | error f => exact .finished (.refl _) ⟨p, h, .unhashed hstage hhash⟩
    | ok hash =>
        dsimp only
        split
        next hsame => exact .finished (.refl _) ⟨p, h, .kept hstage hhash hsame⟩
        next hdiffers => exact goes fun _ => ⟨hash, hhash, hdiffers⟩
  · rw [if_neg (by simpa using hstage)]
    exact goes fun h => absurd h hstage

end Calling

end Pipeline

end Toolbar
