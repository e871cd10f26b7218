/-
# `Toolbar.Proofs.Pipeline.Latest` — which configurations a pipeline goes by

Calls that are done one after the other bring lists of configurations, and a resolved pipeline shows
the buttons of the list that it holds.  New configurations are put down unless they have the hash of
the last cycle.  While the record is loaded this is the hash of the list that is held, so nothing is
lost.  But a load that fails leaves the hash where it is, and then lists are put down without a
cycle:

    held        hash of the last cycle        new list
    a           a                             a is held already
    b           a, and the load has failed    a is `Overlooks`ed, and b stays

So the last list wins when it was not overlooked, and only then (`latest_wins`).
-/
import Toolbar.Proofs.Pipeline.Faults
import Toolbar.Proofs.Pipeline.Overlap
import Toolbar.Proofs.Session.Frame

namespace Toolbar

namespace Pipeline

open Button

/-! ## New configurations that are overlooked -/

/-- The load has failed, and new configurations have the hash of the last cycle, but others have
been put down behind that cycle. -/
def Overlooks (p : Pipeline) (configs : List Config) : Prop :=
  p.stage = .error ∧ p.recordLoaded = false ∧
    ∃ hash, Config.hash configs = .ok hash ∧ p.cycleHash = some hash ∧
      Config.hash p.configs ≠ .ok hash

/-- This is how it comes to that: a load fails behind a cycle, and other configurations are put
down. -/
theorem overlooks_of_failed {p : Pipeline} {hash : String}
    (hashed : Config.hash p.configs = .ok hash) (cycled : p.cycleHash = some hash)
    {others : List Config} (differ : Config.hash others ≠ .ok hash)
    (text : String) (record evaluated : Option Nat) :
    Overlooks { p.loading.loadFailed text record evaluated with configs := others } p.configs :=
  ⟨rfl, rfl, hash, hashed, cycled, differ⟩

/-! ## Fresh buttons behind a call -/

section Calling

variable {supply : Supply} {found : String → String → Option Value → Prop} {record v : Value}
  {p q : Pipeline} {configs : List Config} {r : Except Fault (List Shown)}

/-- A pipeline that stays still has drifted as loads allow. -/
theorem Cycled.of_still (h : Cycled found .still record p q r) :
    Cycled found .loads record p q r := by
  cases h with
  | refused hno => exact .refused hno
  | unhashed start hhash => exact .unhashed start hhash
  | unsorted start hhash hsort => exact .unsorted start hhash hsort
  | failed start hhash hsort hmakes hmay =>
      cases hmay
      exact .failed start hhash hsort hmakes (Drift.loads.refl _)
  | resolved start hhash hsort hmakes hmay =>
      cases hmay
      exact .resolved start hhash hsort hmakes (Drift.loads.refl _)

/-- How a cycle over configurations with a hash leaves what a pipeline goes by: it is over these,
and its hash is put down unless it may not start. -/
theorem Cycled.abides (h : Cycled found .still record p q r)
    (hashed : ∃ hash, Config.hash p.configs = .ok hash) :
    q.configs = p.configs ∧ q.recordLoaded = p.recordLoaded ∧
      (p.mayStart = true → ∃ hash, Config.hash p.configs = .ok hash ∧ q.cycleHash = some hash) := by
  cases h with
  | refused hno => exact ⟨rfl, rfl, fun start => nomatch hno.symm.trans start⟩
  | unhashed _ hhash =>
      obtain ⟨hash, hok⟩ := hashed
      exact nomatch hhash.symm.trans hok
  | unsorted _ hhash _ => exact ⟨rfl, rfl, fun _ => ⟨_, hhash, rfl⟩⟩
  | failed _ hhash _ _ hmay =>
      cases hmay
      exact ⟨rfl, rfl, fun _ => ⟨_, hhash, rfl⟩⟩
  | resolved _ hhash _ _ hmay =>
      cases hmay
      exact ⟨rfl, rfl, fun _ => ⟨_, hhash, rfl⟩⟩

/-- A pipeline at rest goes by the configurations that it holds: while its record is loaded the last
cycle was over them, and when it is resolved it shows their buttons. -/
structure Abides (supply : Supply) (record : Value) (p : Pipeline) : Prop where
  rests : Rests p
  cycled : p.recordLoaded = true →
    ∃ hash, Config.hash p.configs = .ok hash ∧ p.cycleHash = some hash
  fresh : p.stage = .resolved → Fresh supply record p

theorem Abides.built (hashed : ∃ hash, Config.hash p.configs = .ok hash) (record : Value) :
    Abides supply record p.built where
  rests := ⟨.inl ⟨rfl, rfl⟩, hashed⟩
  cycled := nofun
  fresh := nofun

/-- A run keeps the configurations. -/
theorem Abides.run (h : Abides supply record p) (ran : Ran supply p v q r) :
    Abides supply v q ∧ q.configs = p.configs := by
  have rests := (ran.rests h.rests).1
  -- Behind a load that went well a cycle may start, whatever the stage was.
  have cycle : ∀ {v place other}, Cycled supply.Found .still v (p.loading.loaded place other) q r →
      Abides supply v q ∧ q.configs = p.configs := by
    intro v place other cycled
    obtain ⟨configs, -, hash⟩ := cycled.abides h.rests.hashed
    refine ⟨⟨rests, fun _ => ?_, cycled.of_still.fresh fun _ => rfl⟩, configs⟩
    rw [configs]
    exact hash rfl
  cases ran with
  | new _ cycled => exact cycle cycled
  | stored _ answered =>
      cases answered with
      | failed _ => exact ⟨⟨rests, nofun, nofun⟩, rfl⟩
      | loaded _ cycled => exact cycle cycled

/-- New configurations are held afterwards, or those with their hash, unless they are overlooked. -/
theorem Abides.setConfigs (h : Abides supply record p)
    (replaced : Replaced supply .still record p configs q r)
    (hashed : ∃ hash, Config.hash configs = .ok hash) :
    Abides supply record q ∧
      (q.configs = configs ∧ ¬ Overlooks p configs ∨
        q.configs = p.configs ∧
          (¬ Overlooks p configs ↔ Config.hash p.configs = Config.hash configs)) := by
  have rests := (replaced.rests h.rests hashed).1
  cases replaced with
  | unhashed _ hhash =>
      obtain ⟨hash, hok⟩ := hashed
      exact nomatch hhash.symm.trans hok
  | @kept hash stage hhash same =>
      refine ⟨h, .inr ⟨rfl, fun heeded => ?_, fun equal overlooked => ?_⟩⟩
      · cases loaded : p.recordLoaded with
        | true =>
            obtain ⟨held, hheld, cycled⟩ := h.cycled loaded
            cases cycled.symm.trans same
            exact hheld.trans hhash.symm
        | false =>
            have failed : p.stage = .error := by
              refine stage.resolve_left fun resolved => ?_
              exact absurd (h.fresh resolved).loaded (by rw [loaded]; exact Bool.false_ne_true)
            refine Classical.byContradiction fun differ => heeded ?_
            exact ⟨failed, loaded, hash, hhash, same, fun equal => differ (equal.trans hhash.symm)⟩
      · obtain ⟨-, -, other, hother, -, differ⟩ := overlooked
        exact differ (equal.trans hother)
  | replaced differs cycled =>
      obtain ⟨held, loaded, hash⟩ := cycled.abides hashed
      have heeded : ¬ Overlooks p configs := by
        rintro ⟨failed, -, hash, hhash, same, -⟩
        obtain ⟨other, hother, differ⟩ := differs (.inr failed)
        cases hhash.symm.trans hother
        exact differ same
      have fresh : q.stage = .resolved → Fresh supply record q :=
        cycled.of_still.fresh fun resolved => (h.fresh resolved).loaded
      refine ⟨⟨rests, fun hloaded => ?_, fresh⟩, .inl ⟨held, heeded⟩⟩
      -- At rest a pipeline whose record is loaded may start a cycle, so this one has started.
      have start : ({ p with configs } : Pipeline).mayStart = true := by
        have was : p.recordLoaded = true := loaded.symm.trans hloaded
        rcases h.rests.stage with ⟨-, unloaded⟩ | stage | stage
        · exact absurd (unloaded.symm.trans was) Bool.false_ne_true
        · simp [mayStart, was, stage, Stage.mayStart]
        · simp [mayStart, was, stage, Stage.mayStart]
      rw [held]
      exact hash start

end Calling

/-! ## The last list -/

/-- The last list of configurations, after a call. -/
def Call.latest (latest : List Config) : Call → List Config
  | setConfigs configs => configs
  | _ => latest

/-- Whether the last list is heeded, after a call. -/
def Call.Heeds (p : Pipeline) (heeded : Prop) : Call → Prop
  | setConfigs configs => ¬ Overlooks p configs
  | _ => heeded

/-- Lists of configurations each of which has a hash of its own. -/
structure Apart (lists : List (List Config)) : Prop where
  hashed : ∀ configs ∈ lists, ∃ hash, Config.hash configs = .ok hash
  eq_of_hash : ∀ a ∈ lists, ∀ b ∈ lists, Config.hash a = Config.hash b → a = b

theorem Apart.pair {a b : List Config} (ha : ∃ hash, Config.hash a = .ok hash)
    (hb : ∃ hash, Config.hash b = .ok hash) (differ : Config.hash a ≠ Config.hash b) :
    Apart [a, b] := by
  have cases : ∀ c, c ∈ [a, b] → c = a ∨ c = b := fun c hc => by simpa using hc
  refine ⟨fun c hc => ?_, fun c hc d hd equal => ?_⟩
  · obtain rfl | rfl := cases c hc
    · exact ha
    · exact hb
  · obtain rfl | rfl := cases c hc <;> obtain rfl | rfl := cases d hd
    · rfl
    · exact absurd equal differ
    · exact absurd equal.symm differ
    · rfl

section Sequences

variable {supply : Supply} {record v : Value} {p q : Pipeline} {r : Except Fault (List Shown)}
  {lists : List (List Config)} {latest : List Config} {heeded : Prop}

/-- A pipeline goes by its configurations, which are the last ones if these were heeded, and only
then. -/
structure Heeding (supply : Supply) (lists : List (List Config)) (latest : List Config)
    (heeded : Prop) (record : Value) (p : Pipeline) : Prop extends Abides supply record p where
  held : p.configs ∈ lists
  latest : heeded ↔ p.configs = latest

theorem Heeding.ran (h : Heeding supply lists latest heeded record p) (ran : Ran supply p v q r) :
    Heeding supply lists latest heeded v q := by
  obtain ⟨abides, configs⟩ := h.toAbides.run ran
  exact ⟨abides, configs ▸ h.held, configs ▸ h.latest⟩

theorem Heeding.called (h : Heeding supply lists latest heeded record p) (apart : Apart lists)
    {c : Call} (brings : ∀ configs, c.gives configs → configs ∈ lists)
    (called : Called supply record p c v q r) :
    Heeding supply lists (c.latest latest) (c.Heeds p heeded) v q := by
  cases c with
  | run => exact h.ran called
  | reload => exact h.ran called
  | saved payload =>
      obtain ⟨-, saved⟩ := called
      split at saved
      · obtain ⟨r', ran⟩ := saved
        exact h.ran ran
      · obtain ⟨rfl, rfl⟩ := saved
        exact h
  | setConfigs configs =>
      obtain ⟨rfl, replaced⟩ := called
      have given : configs ∈ lists := brings configs rfl
      obtain ⟨abides, ⟨held, heeds⟩ | ⟨held, heeds⟩⟩ :=
        h.toAbides.setConfigs replaced (apart.hashed configs given)
      · exact ⟨abides, held ▸ given, iff_of_true heeds held⟩
      · refine ⟨abides, held ▸ h.held, heeds.trans ⟨fun equal => ?_, fun equal => ?_⟩⟩
        · exact held.trans (apart.eq_of_hash _ h.held _ given equal)
        · exact congrArg Config.hash (held.symm.trans equal)

variable (supply) (n : Nat)

/-- After a call: when the pipeline is resolved it shows the buttons of the configurations that it
holds, and these are the last ones if they were heeded, and only then. -/
def Winning (latest : List Config) (heeded : Prop) (t : Shared Nat Session) : Prop :=
  ∃ q record, At supply n q record t ∧ (heeded ↔ q.configs = latest) ∧
    (q.stage = .resolved → Fresh supply record q)

/-- Calls one after the other all end, and the pipeline goes by the last list after each of them, if
that was heeded; the store may go on between them. -/
def AllWinning : List Config → Prop → Nat → List Call → Shared Nat Session → Prop
  | _, _, _, [], _ => True
  | latest, heeded, number, c :: cs, s =>
      supply.Ends .still n number (fun _ => True)
        (fun t _ =>
          Winning supply n (c.latest latest) (c.Heeds (s.outer.pipeline n) heeded) t ∧
          ∀ u, supply.Drifts .still n t u →
            AllWinning (c.latest latest) (c.Heeds (s.outer.pipeline n) heeded) (number + 1) cs u)
        s.outer.shelf ((c.work n).run supply.supplier number s)

variable {supply n}

theorem allWinning (apart : Apart lists) (calls : List Call) {number : Nat} {s : Shared Nat Session}
    (h : At supply n p record s) (heeding : Heeding supply lists latest heeded record p)
    (brings : ∀ c ∈ calls, ∀ configs, c.gives configs → configs ∈ lists) :
    AllWinning supply n latest heeded number calls s := by
  induction calls generalizing number p record s latest heeded with
  | nil => exact trivial
  | cons c calls ih =>
      refine (call_ends h c).mono (fun _ h => h) ?_
      rintro t r ⟨v, q, ht, called⟩
      rw [h.pipeline]
      have heeded := heeding.called apart (brings c List.mem_cons_self) called
      refine ⟨⟨q, v, ht, heeded.latest, heeded.fresh⟩, fun u hu => ?_⟩
      -- Between the calls the store goes on, and the pipeline is left as it is.
      obtain ⟨_, hstill, rfl⟩ := ht.drifts hu
      exact ih hstill heeded fun c hc => brings c (List.mem_cons_of_mem _ hc)

/-- **The last list wins, unless it was overlooked.**  From when it is built, calls of a pipeline
that are done one after the other all end, whatever the store answers.  After each of them the
pipeline, when it is resolved, shows the buttons that the configurations it holds make about its
record.  Where each list that it is given has a hash of its own, these are the last one exactly if
that was not overlooked: a list is when the last load has failed and the list has the hash of the
cycle before, over which others have been put down since. -/
theorem latest_wins {p : Pipeline} {s : Shared Nat Session} (coherent : supply.Coherent s)
    (has : s.outer.pipelines[n]? = some p.built) {lists : List (List Config)} (apart : Apart lists)
    (own : p.configs ∈ lists) {calls : List Call}
    (brings : ∀ c ∈ calls, ∀ configs, c.gives configs → configs ∈ lists) (number : Nat) :
    AllWinning supply n p.configs True number calls s := by
  have h : Stands supply n p.built s := ⟨coherent, has⟩
  have abides : Abides supply .null p.built := .built (apart.hashed _ own) .null
  have heeding : Heeding supply lists p.configs True .null p.built :=
    ⟨abides, own, iff_of_true trivial rfl⟩
  exact allWinning apart calls (h.unloaded rfl .null) heeding brings

/-- A list of one button. -/
def oneButton : List Config :=
  [{ label := .null }]

theorem oneButton_wins : AllWinning (.anything 1 (.int 1)) 0 [] True 0
    [.run, .setConfigs oneButton, .reload]
    { outer := { pipelines := [{ entity := "contact", recordId := some "c1" }] } } := by
  have hashed : ∃ hash, Config.hash oneButton = .ok hash :=
    Config.hash_eq_ok_iff.mpr (by decide +kernel)
  have differ : (Config.hash []).toOption ≠ (Config.hash oneButton).toOption := by decide +kernel
  have apart : Apart [[], oneButton] :=
    .pair (Config.hash_eq_ok_iff.mpr (List.forall_mem_nil _)) hashed fun equal =>
      differ (congrArg Except.toOption equal)
  refine latest_wins (.of_empty (fun _ _ => trivial) fun _ => rfl) rfl
    (p := { entity := "contact", recordId := some "c1" }) apart List.mem_cons_self ?_ 0
  intro c hc configs gives
  simp only [List.mem_cons, List.not_mem_nil, or_false] at hc
  rcases hc with rfl | rfl | rfl
  · exact gives.elim
  · obtain rfl : configs = oneButton := gives
    exact List.mem_cons_of_mem _ List.mem_cons_self
  · exact gives.elim

end Sequences

end Pipeline

end Toolbar
