/-
# `Toolbar.Proofs.Pipeline.Deed` — what a pipeline does when nobody interrupts it

Nothing else happens while a call runs or the form is taken down.  So each is a function of what it
begins with: of the pipeline, its record, the stock of the cache and the answers of the store.

    outcome       what configurations come to about a record
    afterCycle    how a cycle leaves the pipeline, and what it returns
    afterConfigs  the same for new configurations
    Ran           how a run leaves it, with the record that was loaded

What a run comes to depends on the pipeline by its form and configurations alone (`Loaded.same`):
where it stood before, its old buttons and its old error do not matter.  All deeds keep `Owns`: a
pipeline that has begun to load has its record among the keys of its scope.
-/
import Toolbar.Proofs.Pipeline.Cycle
import Toolbar.Proofs.Session.Alone

namespace Toolbar

namespace Pipeline

/-! ## What configurations come to -/

section Outcome

variable (read : String → String → Except StoreFault Value) (record : Value)
  (host : Action.Host)

/-- The button that a configuration makes, if its condition holds, and the stock then. -/
def makeOne (c : Button.Config) (stock : Stock) : Except Fault (Option Button.Shown) × Stock :=
  match c.resolve.run.under (.memo read record) stock with
  | (.error f, stock) => (.error f, stock)
  | (.ok resolved, stock) =>
      let (shown, stock) := (Expr.holdsFor true host.toSurroundings c.visibility).under
        (.memo read (conditionRecord record)) stock
      (.ok (if shown then some ⟨resolved⟩ else none), stock)

/-- The buttons that configurations make one after the other, up to the first fault. -/
def makeEach : List Button.Config → Stock → Except Fault (List Button.Shown) × Stock
  | [], stock => (.ok [], stock)
  | c :: cs, stock =>
      match makeOne read record host c stock with
      | (.error f, stock) => (.error f, stock)
      | (.ok b, stock) =>
          match makeEach cs stock with
          | (.error f, stock) => (.error f, stock)
          | (.ok bs, stock) => (.ok (b.toList ++ bs), stock)

/-- The hash of configurations, and the buttons that they make unless they fail. -/
def outcome (configs : List Button.Config) (stock : Stock) :
    Except Fault (String × Option (List Button.Shown)) :=
  (Button.Config.hash configs).map fun hash =>
    (hash, match Button.sortByPosition configs with
      | .error _ => none
      | .ok sorted => (makeEach read record host sorted stock).1.toOption)

end Outcome

/-- How an outcome leaves a pipeline, and what is returned. -/
def ended (p : Pipeline) :
    Except Fault (String × Option (List Button.Shown)) → Pipeline × Except Fault (List Button.Shown)
  | .error f => (p.cycling, .error f)
  | .ok (hash, none) => ((p.hashed hash).cycleFailed, .ok [])
  | .ok (hash, some buttons) => ((p.hashed hash).resolved buttons, .ok buttons)

/-- How a cycle leaves a pipeline, and what it returns. -/
def afterCycle (read : String → String → Except StoreFault Value) (record : Value) (p : Pipeline)
    (stock : Stock) : Pipeline × Except Fault (List Button.Shown) :=
  if p.mayStart then p.ended (outcome read record p.host p.configs stock)
  else (p, .ok p.buttons)

/-- How new configurations leave a pipeline, and what is returned. -/
def afterConfigs (read : String → String → Except StoreFault Value) (record : Value) (p : Pipeline)
    (configs : List Button.Config) (stock : Stock) : Pipeline × Except Fault (List Button.Shown) :=
  if p.stage = .resolved ∨ p.stage = .error then
    match Button.Config.hash configs with
    | .error f => (p, .error f)
    | .ok hash =>
        if p.cycleHash = some hash then (p, .ok p.buttons)
        else afterCycle read record { p with configs } stock
  else afterCycle read record { p with configs } stock

/-- How the answer to the load of a record leaves a pipeline, with its record, and what is
returned. -/
inductive Loaded (read : String → String → Except StoreFault Value) (stock : Stock) (p : Pipeline) :
    Except StoreFault Value → Value → Pipeline → Except Fault (List Button.Shown) → Prop
  | failed {f : StoreFault} {place other : Option Nat} :
      Loaded read stock p (.error f) (.map []) (p.loadFailed f.text place other) (.ok [])
  | loaded {v : Value} {place other : Option Nat} {q : Pipeline}
      {r : Except Fault (List Button.Shown)} :
      (q, r) = afterCycle read v (p.loaded place other) stock → Loaded read stock p (.ok v) v q r

/-- The key of the record of a form. -/
def key (p : Pipeline) : String :=
  Record.key p.entity (p.recordId.getD "")

section Base

variable (read : String → String → Except StoreFault Value) (stock : Stock) (p : Pipeline)

/-- The answer to the load of a form's record; a new one is empty. -/
def baseAnswer : Except StoreFault Value :=
  if Record.isNew p.recordId then .ok (.map [])
  else stock.answer read p.entity (p.recordId.getD "")

/-- The stock after that. -/
def baseStock : Stock :=
  if Record.isNew p.recordId then stock else stock.after read p.entity (p.recordId.getD "")

end Base

/-- A pipeline of the same form and configurations, newly built. -/
def built (p : Pipeline) : Pipeline where
  entity := p.entity
  recordId := p.recordId
  configs := p.configs
  host := p.host
  page := p.page
  fallback := p.fallback
  listens := p.listens

section Forms

variable {p q : Pipeline} {r : Except Fault (List Button.Shown)}

theorem ended_built (p : Pipeline) (o : Except Fault (String × Option (List Button.Shown))) :
    (p.ended o).1.built = p.built := by
  rcases o with f | ⟨hash, _ | buttons⟩ <;> rfl

theorem ended_stage (p : Pipeline) (o : Except Fault (String × Option (List Button.Shown))) :
    (p.ended o).1.stage ≠ .idle := by
  rcases o with f | ⟨hash, _ | buttons⟩ <;> exact Stage.noConfusion

theorem ended_record (p : Pipeline) (o : Except Fault (String × Option (List Button.Shown))) :
    (p.ended o).1.record = p.record := by
  rcases o with f | ⟨hash, _ | buttons⟩ <;> rfl

variable {read : String → String → Except StoreFault Value} {stock : Stock} {record v v' : Value}

theorem afterCycle_built (h : (q, r) = afterCycle read record p stock) : q.built = p.built := by
  unfold afterCycle at h
  split at h
  · rw [← ended_built p _, ← h]
  · cases h
    rfl

theorem afterCycle_record (h : (q, r) = afterCycle read record p stock) : q.record = p.record := by
  unfold afterCycle at h
  split at h
  · rw [← ended_record p _, ← h]
  · cases h
    rfl

/-- No cycle starts in an idle pipeline, and none ends in one. -/
theorem afterCycle_stage (h : (q, r) = afterCycle read record p stock) :
    q.stage = .idle ↔ p.stage = .idle := by
  unfold afterCycle at h
  split at h
  next start =>
    have hstage := ended_stage p (outcome read record p.host p.configs stock)
    rw [← h] at hstage
    refine ⟨fun hq => absurd hq hstage, fun hp => ?_⟩
    rw [mayStart, hp] at start
    exact absurd (Bool.and_eq_true_iff.mp start).2 Bool.false_ne_true
  next =>
    cases h
    exact Iff.rfl

theorem Loaded.built {answer : Except StoreFault Value} (h : Loaded read stock p answer v q r) :
    q.built = p.built := by
  cases h with
  | failed => rfl
  | @loaded v place other q r h =>
      exact (afterCycle_built h : q.built = (p.loaded place other).built)

/-- A pipeline that has loaded is not idle. -/
theorem Loaded.stage {answer : Except StoreFault Value} (h : Loaded read stock p answer v q r) :
    q.stage ≠ .idle := by
  cases h with
  | failed => exact Stage.noConfusion
  | loaded h => exact fun hq => Stage.noConfusion ((afterCycle_stage h).mp hq)

/-- A record is loaded only if it was the answer. -/
theorem Loaded.answer_eq {answer : Except StoreFault Value} (h : Loaded read stock p answer v q r)
    (loaded : q.recordLoaded = true) : answer = .ok v := by
  cases h with
  | failed => cases loaded
  | loaded => rfl

/-- Of two pipelines with the same host and configurations, none is left otherwise than the other,
unless configurations have no hash. -/
theorem Loaded.same {p' q' : Pipeline} {r' : Except Fault (List Button.Shown)}
    {answer : Except StoreFault Value} (h : Loaded read stock p answer v q r)
    (h' : Loaded read stock p' answer v' q' r') (configs : p'.configs = p.configs)
    (host : p'.host = p.host) {buttons : List Button.Shown} (hr : r = .ok buttons) :
    v' = v ∧ q'.stage = q.stage ∧ q'.error = q.error ∧ q'.buttons = q.buttons ∧ r' = r := by
  cases h with
  | failed =>
      cases h' with
      | failed => exact ⟨rfl, rfl, rfl, rfl, rfl⟩
  | @loaded v place other q r h =>
      cases h' with
      | @loaded _ place' other' q' r' h' =>
          have start : ∀ (p : Pipeline) place other,
              afterCycle read v (p.loaded place other) stock =
              (p.loaded place other).ended (outcome read v p.host p.configs stock) :=
            fun _ _ _ => if_pos rfl
          rw [start] at h
          rw [start, configs, host] at h'
          generalize outcome read v p.host p.configs stock = o at h h'
          rcases o with f | ⟨hash, _ | made⟩
          · cases h
            cases hr
          · cases h
            cases h'
            exact ⟨rfl, rfl, rfl, rfl, rfl⟩
          · cases h
            cases h'
            exact ⟨rfl, rfl, rfl, rfl, rfl⟩

end Forms

/-! ## Cycles -/

section Running

variable {source : Source} {n number : Nat} {p q : Pipeline} {record v : Value}
  {s t : Shared Nat Session}

theorem At.reads (h : At source.supply n p record s) (reads : Reads source n s t) :
    At source.supply n p record t where
  coherent := reads.settled.coherent
  has := by rw [reads.pipelines, h.has]
  texts := fun loaded => (h.texts loaded).within reads.within
  conditions := fun loaded => (h.conditions loaded).within reads.within

theorem resolveOne_alone (c : Button.Config) (h : At source.supply n p record s)
    (settled : Settled s) (loaded : p.recordLoaded = true) :
    source.Alone number
      (fun t r => Reads source n s t ∧
        (r, t.stock) = makeOne (source.read s.outer.store) record p.host c s.stock)
      ((resolveOne n c).run source.supplier number s) := by
  rw [resolveOne, Work.run_pipeline, h.pipeline]
  refine (resolve_alone c.resolve.run settled (h.texts loaded)).bind ?_
  rintro t r ⟨ht, hr⟩
  have h := h.reads ht
  simp only [makeOne, ← hr]
  cases r with
  | error f => exact .finished ⟨ht, rfl⟩
  | ok resolved =>
      simp only [Work.run_pipeline, h.pipeline]
      refine (resolve_alone _ ht.settled (h.conditions loaded)).bind ?_
      rintro u shown ⟨hu, hshown⟩
      rw [ht.read] at hshown
      rw [← hshown]
      exact .finished ⟨ht.trans hu, rfl⟩

theorem resolveEach_alone (cs : List Button.Config) (h : At source.supply n p record s)
    (settled : Settled s) (loaded : p.recordLoaded = true) :
    source.Alone number
      (fun t r => Reads source n s t ∧
        (r, t.stock) = makeEach (source.read s.outer.store) record p.host cs s.stock)
      ((resolveEach n cs).run source.supplier number s) := by
  induction cs generalizing s with
  | nil => exact .finished ⟨.refl settled, rfl⟩
  | cons c cs ih =>
      rw [resolveEach]
      refine (resolveOne_alone c h settled loaded).bind ?_
      rintro t r ⟨ht, hr⟩
      simp only [makeEach, ← hr]
      cases r with
      | error f => exact .finished ⟨ht, rfl⟩
      | ok b =>
          refine (ih (h.reads ht) ht.settled).bind ?_
          rintro u r ⟨hu, hrest⟩
          rw [ht.read] at hrest
          simp only [← hrest]
          cases r with
          | error f => exact .finished ⟨ht.trans hu, rfl⟩
          | ok bs => exact .finished ⟨ht.trans hu, rfl⟩

theorem cycle_alone (h : At source.supply n p record s) (settled : Settled s) :
    source.Alone number
      (fun t r => ∃ q, At source.supply n q record t ∧ Passes source n s t ∧
        (q, r) = afterCycle (source.read s.outer.store) record p s.stock)
      ((cycle n).run source.supplier number s) := by
  rw [cycle, Work.run_pipeline, h.pipeline, afterCycle]
  cases hstart : p.mayStart with
  | false => exact .finished ⟨p, h, .refl settled, rfl⟩
  | true =>
      have loaded : p.recordLoaded = true := (Bool.and_eq_true_iff.mp hstart).1
      have hcycling : At source.supply n p.cycling record _ := h.change (f := cycling) rfl rfl rfl
      have passes : Passes source n s _ := .onPipeline settled cycling
      simp only [Bool.not_true, Bool.false_eq_true, if_false, Work.run_modify, if_true, outcome]
      cases hhash : Button.Config.hash p.configs with
      | error f => exact .finished ⟨p.cycling, hcycling, passes, rfl⟩
      | ok hash =>
          have hhashed : At source.supply n (p.hashed hash) record _ :=
            hcycling.change (f := fun p => { p with cycleHash := some hash }) rfl rfl rfl
          have passes := passes.trans
            (.onPipeline passes.settled fun p => { p with cycleHash := some hash })
          simp only [Work.run_modify, Except.map]
          cases hsort : Button.sortByPosition p.configs with
          | error f =>
              exact .finished ⟨_, hhashed.change (f := cycleFailed) rfl rfl rfl,
                passes.trans (.onPipeline passes.settled cycleFailed), rfl⟩
          | ok sorted =>
              refine (resolveEach_alone sorted hhashed passes.settled loaded).bind ?_
              rintro t r ⟨ht, hr⟩
              have hq := hhashed.reads ht
              have passes := passes.trans ht.toPasses
              have made :
                  (makeEach (source.read s.outer.store) record p.host sorted s.stock).1 = r :=
                congrArg Prod.fst hr.symm
              simp only [made]
              cases r with
              | error f =>
                  exact .finished ⟨_, hq.change (f := cycleFailed) rfl rfl rfl,
                    passes.trans (.onPipeline passes.settled cycleFailed), rfl⟩
              | ok buttons =>
                  exact .finished ⟨_, hq.change (f := (·.resolved buttons)) rfl rfl rfl,
                    passes.trans (.onPipeline passes.settled (·.resolved buttons)), rfl⟩

/-! ## Runs -/

theorem passes_loadedPipeline (h : Settled s) (place : Option Nat) :
    Passes source n s { s with outer := s.outer.loadedPipeline n place } := by
  simp only [Session.loadedPipeline]
  split
  · exact .onPipeline h _
  · have passes : Passes source n s _ := .shelve h (.map [])
    exact passes.trans (.onPipeline passes.settled _)

theorem passes_newPipelineRecord (h : Settled s) :
    Passes source n s { s with outer := s.outer.newPipelineRecord n } :=
  have passes : Passes source n s _ := .shelve h (.map [])
  passes.trans (.onPipeline passes.settled _)

theorem passes_failedPipelineLoad (h : Settled s) (text : String) :
    Passes source n s { s with outer := s.outer.failedPipelineLoad n text } :=
  have passes : Passes source n s _ := .shelve h (.map [])
  have passes := passes.trans (.shelve passes.settled (.map []))
  passes.trans (.onPipeline passes.settled _)

/-- A state after another in which a pipeline has loaded its record, with what it has come to. -/
structure Came (source : Source) (n : Nat) (s t : Shared Nat Session) (v : Value) (q : Pipeline) :
    Prop extends Passes source n s t, At source.supply n q v t where
  shows : t.outer.shelf.Shows v q.record

/-- A cycle after the load of a record. -/
theorem afterLoad_loaded {place other : Option Nat}
    (h : At source.supply n (p.loaded place other) v t) (passes : Passes source n s t)
    (stock : t.stock = s.stock) :
    source.Alone number
      (fun u r => ∃ w q, Came source n s u w q ∧
        Loaded (source.read s.outer.store) s.stock p (.ok v) w q r)
      ((cycle n).run source.supplier number t) := by
  refine (cycle_alone h passes.settled).mono ?_
  rintro u r ⟨q, hq, hu, hr⟩
  rw [passes.read, stock] at hr
  refine ⟨v, q, ⟨passes.trans hu, hq, ?_⟩, .loaded hr⟩
  rw [afterCycle_record hr]
  exact (h.texts rfl).within hu.within

/-- What follows the answer to the load of a record.  After a failed one nothing is fetched. -/
theorem afterLoad_alone {answer : Except StoreFault Value}
    {reply : Except StoreFault (Option Nat)} (h : Stands source.supply n p s) (settled : Settled s)
    (tells : s.outer.shelf.Tells answer reply) :
    source.Alone number
      (fun t r => ∃ v q, Came source n s t v q ∧
        Loaded (source.read s.outer.store) s.stock p answer v q r ∧
        ∀ f, answer = .error f → t.stock = s.stock)
      ((afterLoad n reply).run source.supplier number s) := by
  rcases answer with f | v
  · rcases reply with f' | place
    · cases tells
      obtain ⟨place, other, hfailed, hshows⟩ := h.failed f.text
      have passes : Passes source n s _ := passes_failedPipelineLoad settled f.text
      rw [afterLoad, Work.run_modify, Work.run_pipeline, hfailed.pipeline]
      exact .finished ⟨.map [], _, ⟨passes, hfailed.unloaded rfl _, hshows⟩, .failed,
        fun _ _ => settled.stock_eq rfl passes.within⟩
    · exact tells.elim
  · -- Both a record and its absence are loaded; only the place that shows it differs.
    obtain ⟨place, rfl, hplace⟩ := tells.shows
    obtain ⟨other, hloaded⟩ := h.loaded hplace
    have passes : Passes source n s _ := passes_loadedPipeline settled place
    rw [afterLoad, Work.run_modify]
    refine (afterLoad_loaded hloaded passes (settled.stock_eq rfl passes.within)).mono ?_
    rintro t r ⟨w, q, ht, hr⟩
    exact ⟨w, q, ht, hr, fun f hf => by cases hf⟩

/-- How a run leaves a pipeline, with its record, and what it returns. -/
structure Rerun (source : Source) (n : Nat) (p : Pipeline) (s t : Shared Nat Session) (v : Value)
    (q : Pipeline) (r : Except Fault (List Button.Shown)) : Prop extends Came source n s t v q where
  begun : Record.isNew p.recordId = false → p.key ∈ t.scopes.keys n
  /-- A record that is in stock under the key then was the answer, unless the answer was none. -/
  keeps : Record.isNew p.recordId = false → ∀ w, t.stock p.key = some w →
    p.baseAnswer (source.read s.outer.store) s.stock = .ok w ∨
      p.baseAnswer (source.read s.outer.store) s.stock = .ok .null
  loaded : Loaded (source.read s.outer.store) (p.baseStock (source.read s.outer.store) s.stock)
    p.loading (p.baseAnswer (source.read s.outer.store) s.stock) v q r

theorem run_alone (h : Stands source.supply n p s) (settled : Settled s) :
    source.Alone number (fun t r => ∃ v q, Rerun source n p s t v q r)
      ((run n).run source.supplier number s) := by
  have hloading := h.change loading
  have hpipeline := hloading.pipeline
  have passes : Passes source n s _ := .onPipeline settled loading
  cases hnew : Record.isNew p.recordId with
  | true =>
      rw [run_new (by rw [hpipeline]; exact hnew)]
      obtain ⟨place, hat⟩ := hloading.new
      refine (afterLoad_loaded hat (passes.trans (passes_newPipelineRecord passes.settled))
        (settled.stock_eq rfl (within_newPipelineRecord n _))).mono ?_
      rintro t r ⟨v, q, ht, hr⟩
      have notStored : Record.isNew p.recordId ≠ false := by
        rw [hnew]
        exact Bool.noConfusion
      refine ⟨v, q, ht, (absurd · notStored), (absurd · notStored), ?_⟩
      rw [baseStock, baseAnswer, if_pos hnew, if_pos hnew]
      exact hr
  | false =>
      rw [run_stored (by rw [hpipeline]; exact hnew), hpipeline]
      refine fetch_alone passes.settled fun t reply replied => ?_
      have ht : Stands source.supply n p.loading t := hloading.onward
        ⟨replied.settled.coherent, replied.within, replied.pipelines⟩
      refine (afterLoad_alone ht replied.settled replied.tells).mono ?_
      rintro u r ⟨v, q, hu, hr, hfailed⟩
      have hstored := Bool.eq_false_iff.mp hnew
      refine ⟨v, q, ⟨⟨(passes.trans replied.toPasses).trans hu.toPasses, hu.toAt, hu.shows⟩,
        fun _ => hu.touched _ replied.has, fun _ w hw => ?_, ?_⟩⟩
      · rw [baseAnswer, if_neg hstored]
        exact replied.keeps hu.toPasses hfailed hw
      · rw [baseStock, baseAnswer, if_neg hstored, if_neg hstored]
        rw [replied.read, replied.stock] at hr
        exact hr

theorem reload_alone (h : Stands source.supply n p s) (settled : Settled s) :
    source.Alone number (fun t r => ∃ v q, Rerun source n p (s.left n) t v q r)
      ((reload n).run source.supplier number s) :=
  run_alone h.leave settled.left

theorem setConfigs_alone (configs : List Button.Config) (h : At source.supply n p record s)
    (settled : Settled s) :
    source.Alone number
      (fun t r => ∃ q, At source.supply n q record t ∧ Passes source n s t ∧
        (q, r) = afterConfigs (source.read s.outer.store) record p configs s.stock)
      ((setConfigs n configs).run source.supplier number s) := by
  have replaces : source.Alone number
      (fun t r => ∃ q, At source.supply n q record t ∧ Passes source n s t ∧
        (q, r) = afterCycle (source.read s.outer.store) record { p with configs } s.stock)
      ((replaceConfigs n configs).run source.supplier number s) := by
    have hconfigs : At source.supply n { p with configs } record _ :=
      h.change (f := fun p => { p with configs }) rfl rfl rfl
    have passes : Passes source n s _ := .onPipeline settled fun p => { p with configs }
    rw [replaceConfigs, Work.run_modify]
    refine (cycle_alone hconfigs passes.settled).mono ?_
    rintro t r ⟨q, hq, ht, hr⟩
    exact ⟨q, hq, passes.trans ht, hr⟩
  rw [setConfigs, Work.run_pipeline, h.pipeline, afterConfigs]
  by_cases hstage : p.stage = .resolved ∨ p.stage = .error
  · rw [if_pos hstage, if_pos (by simpa using hstage)]
    cases hhash : Button.Config.hash configs with
    | error f => exact .finished ⟨p, h, .refl settled, rfl⟩
    | ok hash =>
        dsimp only
        split
        next => exact .finished ⟨p, h, .refl settled, rfl⟩
        next => exact replaces
  · rw [if_neg hstage, if_neg (by simpa using hstage)]
    exact replaces

end Running

/-! ## Deeds -/

/-- What is done to a pipeline: a call, or the form is taken down. -/
inductive Deed where
  | call (c : Call)
  | tearDown

/-- A deed as work; nobody looks at what it returns. -/
def Deed.work (n : Nat) : Deed → Work Unit
  | call c => (c.work n).bind fun _ => .done ()
  | tearDown => Pipeline.tearDown n

/-- Two pipelines about the same record. -/
structure SameRecord (p q : Pipeline) : Prop where
  entity : q.entity = p.entity
  recordId : q.recordId = p.recordId

theorem SameRecord.of_built {p q : Pipeline} (h : q.built = p.built) : SameRecord p q :=
  ⟨congrArg (·.entity) h, congrArg (·.recordId) h⟩

theorem SameRecord.key {p q : Pipeline} (h : SameRecord p q) : q.key = p.key := by
  rw [Pipeline.key, h.entity, h.recordId, Pipeline.key]

/-- A pipeline of a session where nobody loads.  When it has begun to load, the key of its record is
in its scope. -/
structure Owns (source : Source) (n : Nat) (p : Pipeline) (v : Value) (s : Shared Nat Session) :
    Prop extends At source.supply n p v s where
  settled : Settled s
  begun : p.stage ≠ .idle → Record.isNew p.recordId = false → p.key ∈ s.scopes.keys n

theorem Owns.of_built {source : Source} {n : Nat} {p : Pipeline} {s : Shared Nat Session}
    (settled : Settled s) (has : s.outer.pipelines[n]? = some p.built) :
    Owns source n p.built .null s :=
  have stands : Stands source.supply n p.built s := ⟨settled.coherent, has⟩
  ⟨stands.unloaded rfl .null, settled, fun hidle => absurd rfl hidle⟩

theorem Owns.kept {source : Source} {n : Nat} {p : Pipeline} {v : Value}
    {s t : Shared Nat Session} (h : Owns source n p v s) (settled : Settled t)
    (has : t.outer.pipelines[n]? = s.outer.pipelines[n]?)
    (keys : t.scopes.keys n = s.scopes.keys n) (within : s.outer.shelf.Within t.outer.shelf) :
    Owns source n p v t where
  coherent := settled.coherent
  has := has.trans h.has
  texts := fun loaded => (h.texts loaded).within within
  conditions := fun loaded => (h.conditions loaded).within within
  settled := settled
  begun := by
    rw [keys]
    exact h.begun

theorem Owns.between {source : Source} {n : Nat} {p : Pipeline} {v : Value}
    {s t : Shared Nat Session} (h : Owns source n p v s) (between : Between s t) :
    Owns source n p v t :=
  h.kept (h.settled.elsewhere between.cache between.within) (by rw [between.pipelines])
    (by rw [between.scopes]) between.within

/-- What every deed keeps. -/
def Did (source : Source) (n : Nat) (p : Pipeline) (s t : Shared Nat Session) : Prop :=
  ∃ v q, Owns source n q v t ∧ SameRecord p q ∧ Aside source n s t ∧ (Covered n s → Covered n t)

section Doing

variable {source : Source} {n number : Nat} {p q : Pipeline} {record v : Value}
  {s t : Shared Nat Session} {r : Except Fault (List Button.Shown)}

theorem Rerun.did (h : Rerun source n p s t v q r) : Did source n p s t := by
  have same : SameRecord p q := .of_built h.loaded.built
  refine ⟨v, q, ⟨h.toAt, h.settled, fun _ hnew => ?_⟩, same, h.toAside, h.covered⟩
  rw [same.key]
  exact h.begun (same.recordId ▸ hnew)

theorem Did.of_left (h : Did source n p (s.left n) t) (settled : Settled s) :
    Did source n p s t := by
  obtain ⟨v, q, hq, same, haside, hcovered⟩ := h
  exact ⟨v, q, hq, same, (aside_left settled).trans haside, fun hs =>
    hcovered fun key hkey => absurd (hs.left key) hkey⟩

theorem afterConfigs_form {read : String → String → Except StoreFault Value} {stock : Stock}
    {configs : List Button.Config} (h : (q, r) = afterConfigs read record p configs stock) :
    SameRecord p q ∧ (q.stage = .idle ↔ p.stage = .idle) := by
  have cycled : (q, r) = afterCycle read record { p with configs } stock →
      SameRecord p q ∧ (q.stage = .idle ↔ p.stage = .idle) := fun h =>
    ⟨⟨congrArg (·.entity) (afterCycle_built h), congrArg (·.recordId) (afterCycle_built h)⟩,
      (afterCycle_stage h).trans Iff.rfl⟩
  unfold afterConfigs at h
  split at h
  · split at h
    · cases h
      exact ⟨⟨rfl, rfl⟩, Iff.rfl⟩
    · split at h
      · cases h
        exact ⟨⟨rfl, rfl⟩, Iff.rfl⟩
      · exact cycled h
  · exact cycled h

theorem call_alone (h : Owns source n p record s) (c : Call) :
    source.Alone number (fun t _ => Did source n p s t)
      ((c.work n).run source.supplier number s) := by
  have reloads : source.Alone number (fun t _ => Did source n p s t)
      ((reload n).run source.supplier number s) :=
    (reload_alone h.toStands h.settled).mono fun t r ⟨v, q, ht⟩ => ht.did.of_left h.settled
  cases c with
  | run => exact (run_alone h.toStands h.settled).mono fun t r ⟨v, q, ht⟩ => ht.did
  | reload => exact reloads
  | setConfigs configs =>
      refine (setConfigs_alone configs h.toAt h.settled).mono ?_
      rintro t r ⟨q, hq, ht, hr⟩
      obtain ⟨same, idle⟩ := afterConfigs_form hr
      refine ⟨record, q, ⟨hq, ht.settled, fun hstage hnew => ?_⟩, same, ht.toAside, ht.covered⟩
      rw [same.key]
      exact ht.touched _ (h.begun (mt idle.mpr hstage) (same.recordId ▸ hnew))
  | saved payload =>
      rw [saved_work, h.pipeline]
      split
      · exact reloads.bind fun t r ht => .finished ht
      · exact .finished ⟨record, p, h, ⟨rfl, rfl⟩, (Passes.refl h.settled).toAside, id⟩

/-- Taking a form down changes the listeners, and the pipeline. -/
theorem tearDownPipeline_eq (n : Nat) (s : Session) :
    s.tearDownPipeline n =
      { s.onPipeline n tornDown with bus := (s.tearDownPipeline n).bus } := by
  unfold Session.tearDownPipeline
  split <;> rfl

theorem tearDown_alone (h : Owns source n p record s) :
    source.Alone number
      (fun t _ => Did source n p s t ∧ (Covered n s → ∀ key, t.cache.get? key = none))
      ((tearDown n).run source.supplier number s) := by
  have aside : Aside source n s (s.left n) := aside_left h.settled
  have run : (tearDown n).run source.supplier number s =
      ({ s.left n with outer := (s.left n).outer.tearDownPipeline n }, .finished ()) := rfl
  rw [run, tearDownPipeline_eq]
  have settled : Settled _ := aside.settled.elsewhere (t := { s.left n with
    outer := { (s.left n).outer.onPipeline n tornDown with
      bus := ((s.left n).outer.tearDownPipeline n).bus } }) rfl (.refl _)
  have stands : Stands source.supply n p.tornDown _ :=
    ⟨settled.coherent, (h.toStands.change tornDown).has⟩
  have owns : Owns source n p.tornDown .null _ :=
    ⟨stands.unloaded rfl .null, settled, fun hidle => absurd rfl hidle⟩
  refine .finished ⟨⟨.null, p.tornDown, owns, ⟨rfl, rfl⟩, ?_, ?_⟩, ?_⟩
  · refine aside.trans ⟨settled, .refl _, rfl, fun m hm => ?_, fun _ _ => rfl⟩
    exact List.getElem?_modify_ne tornDown _ (Ne.symm hm)
  · intro hs key hkey
    exact absurd (hs.left key) hkey
  · intro hs key
    exact hs.left key

theorem deed_alone (h : Owns source n p record s) (d : Deed) :
    source.Alone number (fun t _ => Did source n p s t)
      ((d.work n).run source.supplier number s) := by
  cases d with
  | call c => exact (call_alone h c).bind fun t r ht => .finished ht
  | tearDown => exact (tearDown_alone h).mono fun t r ht => ht.1

end Doing

end Pipeline

end Toolbar
