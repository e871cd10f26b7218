/-
# `Toolbar.Proofs.Action.Course` — how a click goes

A click takes one course, which its script, its address and the page decide:

    script    address    what happens                       comes of it
    yes       —          the script comes to its end        no issue
    yes       —          it fails, and this is reported     one issue, with the text of the report
    yes       —          it fails, and this cannot be       something gets out
    yes       —          it is left by what is no failure   this gets out
    no        yes        the address is opened, or not      as `Opens` says
    no        no         nothing                            no issue

What a script has done before it failed stays done, and its report follows.  How the alert or the
fallback fails does not matter: neither the issue nor a second report depends on it.

So a click has an outcome unless something gets out of it, and of failures only two kinds do: what
is raised where the text of a failure is asked for, and what is raised where the navigation of the
page is read (`Raises`).
-/
import Toolbar.Proofs.Action.Page
import Toolbar.Proofs.Method.Results
import Toolbar.StandIn.Attributes
import Toolbar.StandIn.Script

namespace Toolbar.Action

/-! ## Courses -/

/-- The record that a script works on: where there is none, an empty one of its own. -/
def ownRecord (record : Value) : Value :=
  if record.isNull then .map [] else record

/-- What is left of the record of the form when a script has left `after`. -/
def leftRecord (record after : Value) : Value :=
  if record.isNull then .null else after

/-- There is no text, or an empty one. -/
def Missing (text : Option String) : Prop :=
  text = none ∨ text = some ""

/-- A script is run: it cannot be compiled, and fails before it does anything, or it does what it was
compiled to. -/
inductive Runs (host : Host) (record : Value) (source : String) : Run → Prop
  | uncompiled {e : Raised} : host.compile (Source.ofScript source) = .error e →
      Runs host record source ⟨[], record, host.toPage, .failed e⟩
  | compiled {action : Value → Page → Run} : host.compile (Source.ofScript source) = .ok action →
      Runs host record source (action record host.toPage)

/-- The courses that a click on a button with a script and an address can take. -/
inductive Course (host : Host) (fallback record : Value) (script address : Option String) :
    Clicked → Prop
  | succeeded {source : String} {es : List Effect} {after : Value} {page : Page} :
      script = some source → source ≠ "" →
      Runs host (ownRecord record) source ⟨es, after, page, .done⟩ →
      Course host fallback record script address
        ⟨es, leftRecord record after, page, .ok ⟨.script, []⟩⟩
  | failed {source text : String} {es reports : List Effect} {after : Value} {page : Page}
      {e : Raised} : script = some source → source ≠ "" →
      Runs host (ownRecord record) source ⟨es, after, page, .failed e⟩ →
      Reports page fallback e ⟨reports, .ok text⟩ →
      Course host fallback record script address
        ⟨es ++ reports, leftRecord record after, page,
          .ok ⟨.script, [⟨"ACTION_SCRIPT_ERROR", text, "action_script", none⟩]⟩⟩
  | unreported {source : String} {es reports : List Effect} {after : Value} {page : Page}
      {e : Raised} {escape : Escape} : script = some source → source ≠ "" →
      Runs host (ownRecord record) source ⟨es, after, page, .failed e⟩ →
      Reports page fallback e ⟨reports, .error escape⟩ →
      Course host fallback record script address
        ⟨es ++ reports, leftRecord record after, page, .error escape⟩
  | left {source kind : String} {es : List Effect} {after : Value} {page : Page} :
      script = some source → source ≠ "" →
      Runs host (ownRecord record) source ⟨es, after, page, .left kind⟩ →
      Course host fallback record script address
        ⟨es, leftRecord record after, page, .error (.left kind)⟩
  | address {url : String} {es : List Effect} {outcome : Except Escape Outcome} :
      Missing script → address = some url → url ≠ "" → Opens host.toPage url es outcome →
      Course host fallback record script address ⟨es, record, host.toPage, outcome⟩
  | idle : Missing script → Missing address →
      Course host fallback record script address ⟨[], record, host.toPage, .ok ⟨.nothing, []⟩⟩

variable {host : Host} {fallback record : Value} {script address : Option String}

theorem missing_or_present (text : Option String) :
    Missing text ∨ ∃ s, text = some s ∧ s ≠ "" := by
  rcases text with _ | s
  · exact .inl (.inl rfl)
  · by_cases h : s = ""
    · exact .inl (.inr (congrArg some h))
    · exact .inr ⟨s, rfl, h⟩

theorem Missing.isVacant {text : Option String} (h : Missing text) :
    (Value.ofText? text).isVacant = true := by
  rcases h with rfl | rfl
  · rfl
  · rfl

theorem Missing.ne {text : Option String} (h : Missing text) {s : String} (hne : s ≠ "") :
    text ≠ some s := by
  rintro rfl
  rcases h with h | h
  · cases h
  · cases h
    exact hne rfl

theorem isVacant_text {s : String} (h : s ≠ "") : (Value.text s).isVacant = false :=
  Bool.eq_false_iff.mpr fun hempty => h (String.isEmpty_iff.mp hempty)

theorem Runs.runScript {source : String} {r : Run} (h : Runs host record source r) :
    runScript host record (.text source) = r := by
  cases h with
  | uncompiled h => simp only [Action.runScript, action, h]
  | compiled h => simp only [Action.runScript, action, h]

theorem exists_run (host : Host) (record : Value) (source : String) :
    ∃ r, Runs host record source r := by
  cases h : host.compile (Source.ofScript source) with
  | error e => exact ⟨_, .uncompiled h⟩
  | ok action => exact ⟨_, .compiled h⟩

/-- A script is run in one way. -/
theorem Runs.unique {source : String} {r r' : Run} (h : Runs host record source r)
    (h' : Runs host record source r') : r = r' :=
  h.runScript.symm.trans h'.runScript

section Run

variable {source : String} {es reports : List Effect} {after : Value} {page : Page} {e : Raised}

theorem Runs.runScript_own {r : Run} (h : Runs host (ownRecord record) source r) :
    Action.runScript host (if record.isNull then .map [] else record) (.text source) = r :=
  h.runScript

theorem Runs.run_done (h : Runs host (ownRecord record) source ⟨es, after, page, .done⟩) :
    run host fallback record (.text source) =
      ⟨es, leftRecord record after, page, .succeeded⟩ := by
  simp only [run, h.runScript_own, leftRecord]

theorem Runs.run_left {kind : String}
    (h : Runs host (ownRecord record) source ⟨es, after, page, .left kind⟩) :
    run host fallback record (.text source) =
      ⟨es, leftRecord record after, page, .escaped (.left kind)⟩ := by
  simp only [run, h.runScript_own, leftRecord]

theorem Runs.run_reported {text : String}
    (h : Runs host (ownRecord record) source ⟨es, after, page, .failed e⟩)
    (hreports : Reports page fallback e ⟨reports, .ok text⟩) :
    run host fallback record (.text source) =
      ⟨es ++ reports, leftRecord record after, page, .failed e text⟩ := by
  simp only [run, h.runScript_own, leftRecord, hreports.report]

theorem Runs.run_unreported {escape : Escape}
    (h : Runs host (ownRecord record) source ⟨es, after, page, .failed e⟩)
    (hreports : Reports page fallback e ⟨reports, .error escape⟩) :
    run host fallback record (.text source) =
      ⟨es ++ reports, leftRecord record after, page, .escaped escape⟩ := by
  simp only [run, h.runScript_own, leftRecord, hreports.report]

/-- A click on a button with a script runs it and nothing else. -/
theorem click_script (hne : source ≠ "") (address : Value) {r : Ran}
    (h : run host fallback record (.text source) = r) :
    click host fallback record (.text source) address =
      ⟨r.effects, r.record, r.page, r.conclusion.outcome⟩ := by
  rw [click, isVacant_text hne, h]
  rfl

end Run

theorem click_address {url : String} (hscript : Missing script) (hurl : url ≠ "") :
    click host fallback record (Value.ofText? script) (.text url) =
      navigate host.toPage record (.text url) := by
  rw [click, hscript.isVacant, isVacant_text hurl]
  rfl

/-- A course that a click can take is the one that it takes. -/
theorem Course.click {c : Clicked} (h : Course host fallback record script address c) :
    click host fallback record (Value.ofText? script) (Value.ofText? address) = c := by
  cases h with
  | succeeded hscript hne hrun =>
      subst hscript
      exact click_script hne _ hrun.run_done
  | failed hscript hne hrun hreports =>
      subst hscript
      exact click_script hne _ (hrun.run_reported hreports)
  | unreported hscript hne hrun hreports =>
      subst hscript
      exact click_script hne _ (hrun.run_unreported hreports)
  | left hscript hne hrun =>
      subst hscript
      exact click_script hne _ hrun.run_left
  | address hscript haddress hne hopens =>
      subst haddress
      exact (click_address hscript hne).trans (hopens.navigate record)
  | idle hscript haddress =>
      rw [Action.click, hscript.isVacant, haddress.isVacant]
      rfl

/-- A click takes a course. -/
theorem exists_course (host : Host) (fallback record : Value) (script address : Option String) :
    ∃ c, Course host fallback record script address c := by
  rcases missing_or_present script with hscript | ⟨source, hscript, hne⟩
  · rcases missing_or_present address with haddress | ⟨url, haddress, hne⟩
    · exact ⟨_, .idle hscript haddress⟩
    · obtain ⟨es, outcome, hopens⟩ := exists_opens host.toPage url
      exact ⟨_, .address hscript haddress hne hopens⟩
  · obtain ⟨⟨es, after, page, ending⟩, hrun⟩ := exists_run host (ownRecord record) source
    cases ending with
    | done => exact ⟨_, .succeeded hscript hne hrun⟩
    | left kind => exact ⟨_, .left hscript hne hrun⟩
    | failed e =>
        obtain ⟨⟨reports, _ | text⟩, hreports⟩ := exists_report page fallback e
        · exact ⟨_, .unreported hscript hne hrun hreports⟩
        · exact ⟨_, .failed hscript hne hrun hreports⟩

theorem course_iff {c : Clicked} : Course host fallback record script address c ↔
    click host fallback record (Value.ofText? script) (Value.ofText? address) = c :=
  iff_of_total (fun _ h => h.click) (exists_course host fallback record script address) c

/-! ## What goes well, and what gets out -/

/-- There is nothing to do for a click, or the one thing that is to be done goes well. -/
inductive GoesWell (host : Host) (record : Value) (script address : Option String) : Prop
  | idle : Missing script → Missing address → GoesWell host record script address
  | script {source : String} {es : List Effect} {after : Value} {page : Page} :
      script = some source → source ≠ "" →
      Runs host (ownRecord record) source ⟨es, after, page, .done⟩ →
      GoesWell host record script address
  | address {url : String} {f : Value} :
      Missing script → address = some url → url ≠ "" →
      Offers host.toPage "open_url" (.ok (some f)) →
      (host.answer f [.text url]).ending = .done → GoesWell host record script address

/-- The failures that get out of a click. -/
inductive Raises (host : Host) (record : Value) (script address : Option String) : Escape → Prop
  | scriptUntold {source kind : String} {es : List Effect} {after : Value} {page : Page}
      {e : Raised} : script = some source → source ≠ "" →
      Runs host (ownRecord record) source ⟨es, after, page, .failed e⟩ → e.text = .error kind →
      Raises host record script address (.untold kind)
  | alertUnread {source text : String} {es : List Effect} {after : Value} {page : Page}
      {e : Raised} {fault : Fault} : script = some source → source ≠ "" →
      Runs host (ownRecord record) source ⟨es, after, page, .failed e⟩ → e.text = .ok text →
      Offers page "open_alert_dialog" (.error fault) →
      Raises host record script address (.unread fault)
  | addressUnread {url : String} {fault : Fault} : Missing script → address = some url → url ≠ "" →
      Offers host.toPage "open_url" (.error fault) → Raises host record script address (.unread fault)
  | addressUntold {url kind : String} {f : Value} {e : Raised} :
      Missing script → address = some url → url ≠ "" →
      Offers host.toPage "open_url" (.ok (some f)) →
      (host.answer f [.text url]).ending = .failed e → e.text = .error kind →
      Raises host record script address (.untold kind)

/-- Whether a failure has got out. -/
def Escape.isFailure : Escape → Bool
  | .untold _ | .unread _ => true
  | .left _ => false

theorem Offers.unique {page : Page} {name : String} {r r' : Except Fault (Option Value)}
    (h : Offers page name r) (h' : Offers page name r') : r = r' :=
  (offers_iff.mp h).symm.trans (offers_iff.mp h')

/-- With a script a click goes well if and only if the script comes to its end. -/
theorem goesWell_script {source : String} {r : Run} (hscript : script = some source)
    (hne : source ≠ "") (hrun : Runs host (ownRecord record) source r) :
    GoesWell host record script address ↔ r.ending = .done := by
  constructor
  · intro well
    cases well with
    | idle hmissing _ => exact absurd hscript (hmissing.ne hne)
    | address hmissing _ _ _ _ => exact absurd hscript (hmissing.ne hne)
    | script hscript' _ hrun' =>
        cases hscript.symm.trans hscript'
        rw [hrun.unique hrun']
  · intro hdone
    obtain ⟨es, after, page, ending⟩ := r
    subst hdone
    exact .script hscript hne hrun

/-- With an address alone it goes well if and only if the page offers to open it and the call comes
to its end. -/
theorem goesWell_address {url : String} {r : Except Fault (Option Value)}
    (hmissing : Missing script) (haddress : address = some url) (hne : url ≠ "")
    (hoffers : Offers host.toPage "open_url" r) :
    GoesWell host record script address ↔
      ∃ f, r = .ok (some f) ∧ (host.answer f [.text url]).ending = .done := by
  constructor
  · intro well
    cases well with
    | idle _ hmissing' => exact absurd haddress (hmissing'.ne hne)
    | script hscript hne' _ => exact absurd hscript (hmissing.ne hne')
    | address _ haddress' _ hoffers' hdone =>
        cases haddress.symm.trans haddress'
        exact ⟨_, hoffers.unique hoffers', hdone⟩
  · rintro ⟨f, rfl, hdone⟩
    exact .address hmissing haddress hne hoffers hdone

/-- The outcome of a course tells whether it goes well. -/
theorem Course.outcome_iff {c : Clicked} (h : Course host fallback record script address c)
    {o : Outcome} (ho : c.outcome = .ok o) :
    o.isOk = true ↔ GoesWell host record script address := by
  cases h with
  | succeeded hscript hne hrun =>
      cases ho
      exact ⟨fun _ => .script hscript hne hrun, fun _ => rfl⟩
  | idle hscript haddress =>
      cases ho
      exact ⟨fun _ => .idle hscript haddress, fun _ => rfl⟩
  | failed hscript hne hrun _ =>
      cases ho
      rw [goesWell_script hscript hne hrun]
      exact ⟨nofun, nofun⟩
  | unreported _ _ _ _ | left _ _ _ => cases ho
  | address hmissing haddress hne hopens =>
      cases hopens with
      | unread _ | untold _ _ _ | left _ _ => cases ho
      | opened hoffers hdone =>
          cases ho
          rw [goesWell_address hmissing haddress hne hoffers]
          exact ⟨fun _ => ⟨_, rfl, hdone⟩, fun _ => rfl⟩
      | unopened hoffers hfailed _ =>
          cases ho
          rw [goesWell_address hmissing haddress hne hoffers]
          refine ⟨nofun, ?_⟩
          rintro ⟨f, hf, hdone⟩
          cases hf
          cases hfailed.symm.trans hdone
      | closed hnone =>
          cases ho
          rw [goesWell_address hmissing haddress hne hnone]
          refine ⟨nofun, ?_⟩
          rintro ⟨f, hf, -⟩
          cases hf

/-- A click that goes well has an outcome. -/
theorem exists_outcome (well : GoesWell host record script address) :
    ∃ c o, Course host fallback record script address c ∧ c.outcome = .ok o := by
  cases well with
  | idle hscript haddress => exact ⟨_, _, .idle hscript haddress, rfl⟩
  | script hscript hne hrun => exact ⟨_, _, .succeeded hscript hne hrun, rfl⟩
  | address hscript haddress hne hoffers hdone =>
      exact ⟨_, _, .address hscript haddress hne (.opened hoffers hdone), rfl⟩

/-- A report out of which a failure gets has none to tell, or no page to tell it on. -/
theorem Reports.raises {page : Page} {e : Raised} {effects : List Effect} {escape : Escape}
    (h : Reports page fallback e ⟨effects, .error escape⟩) (failure : escape.isFailure = true) :
    (∃ kind, e.text = .error kind ∧ escape = .untold kind) ∨
      ∃ text fault, e.text = .ok text ∧ Offers page "open_alert_dialog" (.error fault) ∧
        escape = .unread fault := by
  have own : ∀ {text : String}, Tells e (.ok text) → ∃ text, e.text = .ok text := by
    intro text htells
    cases htells with
    | own htext _ => exact ⟨_, htext⟩
    | kind htext => exact ⟨_, htext⟩
  have passed : ∀ {text : String} {ending : Ending},
      ¬ Passes text ending (.error escape) := by
    intro text ending hpasses
    cases hpasses with
    | left => cases failure
  cases h with
  | untold htells =>
      cases htells with
      | untold htext => exact .inl ⟨_, htext, rfl⟩
  | unread htells hoffers =>
      obtain ⟨text, htext⟩ := own htells
      exact .inr ⟨text, _, htext, hoffers, rfl⟩
  | alert _ _ hpasses => exact absurd hpasses passed
  | fallback _ _ _ _ hpasses => exact absurd hpasses passed

/-- A failure gets out of a course if and only if it is one of those that get out of a click. -/
theorem Course.raises_iff {c : Clicked} (h : Course host fallback record script address c)
    {escape : Escape} (failure : escape.isFailure = true) :
    c.outcome = .error escape ↔ Raises host record script address escape := by
  constructor
  · intro hescape
    cases h with
    | succeeded _ _ _ | failed _ _ _ _ | idle _ _ => cases hescape
    | left _ _ _ =>
        cases hescape
        cases failure
    | unreported hscript hne hrun hreports =>
        cases hescape
        rcases hreports.raises failure with ⟨kind, htext, rfl⟩ | ⟨text, fault, htext, hoffers, rfl⟩
        · exact .scriptUntold hscript hne hrun htext
        · exact .alertUnread hscript hne hrun htext hoffers
    | address hscript haddress hne hopens =>
        cases hopens with
        | unread hoffers =>
            cases hescape
            exact .addressUnread hscript haddress hne hoffers
        | untold hoffers hfailed htext =>
            cases hescape
            exact .addressUntold hscript haddress hne hoffers hfailed htext
        | left _ _ =>
            cases hescape
            cases failure
        | closed _ | opened _ _ | unopened _ _ _ => cases hescape
  · intro raises
    have taken : ∀ {c' : Clicked}, Course host fallback record script address c' → c = c' :=
      fun h' => h.click.symm.trans h'.click
    cases raises with
    | scriptUntold hscript hne hrun htext =>
        rw [taken (.unreported hscript hne hrun (.untold (.untold htext)))]
    | alertUnread hscript hne hrun htext hoffers =>
        obtain ⟨_ | text, htells⟩ := exists_tells _
        · cases htells with
          | untold htext' => cases htext.symm.trans htext'
        · rw [taken (.unreported hscript hne hrun (.unread htells hoffers))]
    | addressUnread hscript haddress hne hoffers =>
        rw [taken (.address hscript haddress hne (.unread hoffers))]
    | addressUntold hscript haddress hne hoffers hfailed htext =>
        rw [taken (.address hscript haddress hne (.untold hoffers hfailed htext))]

/-- Without a script nothing is done but, at most, to open the address once. -/
theorem Course.navigates {c : Clicked} (h : Course host fallback record script address c)
    (hmissing : Missing script) :
    c.effects.length ≤ 1 ∧ ∀ effect ∈ c.effects, ∃ url f, address = some url ∧
      Offers host.toPage "open_url" (.ok (some f)) ∧ effect = .called f [.text url] := by
  have once : ∀ {f : Value} {url : String}, address = some url →
      Offers host.toPage "open_url" (.ok (some f)) →
      [Effect.called f [.text url]].length ≤ 1 ∧
        ∀ effect ∈ [Effect.called f [.text url]], ∃ url f, address = some url ∧
          Offers host.toPage "open_url" (.ok (some f)) ∧ effect = .called f [.text url] :=
    fun haddress hoffers => ⟨Nat.le_refl 1, fun effect hmem =>
      ⟨_, _, haddress, hoffers, List.mem_singleton.mp hmem⟩⟩
  cases h with
  | succeeded hscript hne _ | failed hscript hne _ _ | unreported hscript hne _ _
  | left hscript hne _ => exact absurd hscript (hmissing.ne hne)
  | idle _ _ => exact ⟨Nat.zero_le 1, nofun⟩
  | address _ haddress _ hopens =>
      cases hopens with
      | unread _ | closed _ => exact ⟨Nat.zero_le 1, nofun⟩
      | opened hoffers _ | unopened hoffers _ _ | untold hoffers _ _ | left hoffers _ =>
          exact once haddress hoffers

/-- With a script nothing is done but what the script does, and a report behind it if the script
fails. -/
theorem Course.scripted {c : Clicked} (h : Course host fallback record script address c)
    {source : String} {r : Run} (hscript : script = some source) (hne : source ≠ "")
    (hrun : Runs host (ownRecord record) source r) :
    (∀ e, r.ending = .failed e → ∃ report, Reports r.page fallback e report ∧
      c.effects = r.effects ++ report.effects ∧ report.effects.length ≤ 1 ∧
      ∀ o, c.outcome = .ok o → ∃ text, Tells e (.ok text) ∧ report.told = .ok text ∧
        o = ⟨.script, [⟨"ACTION_SCRIPT_ERROR", text, "action_script", none⟩]⟩) ∧
    ((∀ e, r.ending ≠ .failed e) → c.effects = r.effects) := by
  cases h with
  | succeeded hscript' _ hrun' | left hscript' _ hrun' =>
      cases hscript.symm.trans hscript'
      rw [hrun.unique hrun']
      exact ⟨nofun, fun _ => rfl⟩
  | failed hscript' _ hrun' hreports =>
      cases hscript.symm.trans hscript'
      rw [hrun.unique hrun']
      refine ⟨?_, fun h => absurd rfl (h _)⟩
      rintro e ⟨⟩
      refine ⟨_, hreports, rfl, hreports.length_le, ?_⟩
      rintro o ⟨⟩
      exact ⟨_, hreports.tells, rfl, rfl⟩
  | unreported hscript' _ hrun' hreports =>
      cases hscript.symm.trans hscript'
      rw [hrun.unique hrun']
      refine ⟨?_, fun h => absurd rfl (h _)⟩
      rintro e ⟨⟩
      exact ⟨_, hreports, rfl, hreports.length_le, nofun⟩
  | address hmissing _ _ _ | idle hmissing _ => exact absurd hscript (hmissing.ne hne)

/-- **A click has an honest outcome, unless something gets out of it.**  A click takes one of its
courses and no other.  An outcome is without issues exactly when there was nothing to do or the one
thing to do went well, and then there is one.  A failure gets out exactly where its text fails when
it is asked for, or where the navigation of the page cannot be read.  With a script nothing is done
but what the script does, and when it fails one report behind that where one can be given; the issue
and the report tell the text of the failure.  Without a script the address is opened at most once,
and nothing else is done. -/
theorem click_accounted (host : Host) (fallback record : Value) (script address : Option String) :
    let c := click host fallback record (Value.ofText? script) (Value.ofText? address)
    (∀ c', Course host fallback record script address c' ↔ c = c') ∧
    (∀ o, c.outcome = .ok o →
      ((o.isOk = true ↔ GoesWell host record script address) ∧
        (o.issues = [] ↔ GoesWell host record script address))) ∧
    (GoesWell host record script address → ∃ o, c.outcome = .ok o) ∧
    (∀ escape : Escape, escape.isFailure = true →
      (c.outcome = .error escape ↔ Raises host record script address escape)) ∧
    (∀ source r, script = some source → source ≠ "" → Runs host (ownRecord record) source r →
      (∀ e, r.ending = .failed e → ∃ report, Reports r.page fallback e report ∧
        c.effects = r.effects ++ report.effects ∧ report.effects.length ≤ 1 ∧
        ∀ o, c.outcome = .ok o → ∃ text, Tells e (.ok text) ∧ report.told = .ok text ∧
          o = ⟨.script, [⟨"ACTION_SCRIPT_ERROR", text, "action_script", none⟩]⟩) ∧
      ((∀ e, r.ending ≠ .failed e) → c.effects = r.effects)) ∧
    (Missing script → c.effects.length ≤ 1 ∧ ∀ effect ∈ c.effects, ∃ url f,
      address = some url ∧ Offers host.toPage "open_url" (.ok (some f)) ∧
        effect = .called f [.text url]) := by
  intro c
  have course : Course host fallback record script address c := course_iff.mpr rfl
  refine ⟨fun c' => course_iff, fun o ho => ⟨course.outcome_iff ho, ?_⟩, fun well => ?_,
    fun escape failure => course.raises_iff failure,
    fun source r hscript hne hrun => course.scripted hscript hne hrun, course.navigates⟩
  · rw [← course.outcome_iff ho]
    exact List.isEmpty_iff.symm
  · obtain ⟨c', o, hcourse, ho⟩ : ∃ c' o, Course host fallback record script address c' ∧
        c'.outcome = .ok o := exists_outcome well
    obtain rfl := course_iff.mp hcourse
    exact ⟨o, ho⟩

/-! ## Two scripts -/

/-- The alert fails once it is waited for, and nothing else does. -/
def answerOf : Value → List Value → Answer
  | .routine "alert", _ => { ending := .failed (.ofText "RuntimeError" "no"), awaitable := true }
  | _, _ => {}

def isRoutine : Value → Bool
  | .routine _ => true
  | _ => false

/-- A page with a log, and with an alert that fails. -/
def brokenAlert : Host where
  toSurroundings := StandIn.around (.map [("log", .object [("append", .routine "log")]),
    ("navigation", .map [("open_url", .routine "open"), ("open_alert_dialog", .routine "alert")])])
  isCallable := isRoutine
  answer := answerOf
  compile := StandIn.compile

/-- The first statement of both scripts, as it stands in the text. -/
def logged : StandIn.Statement :=
  .call false ⟨["log"], some "append"⟩ (.text "a")

/-- A script that fails at its second statement. -/
def halfway : String :=
  "  context[\"log\"].append('a')\n  nope()"

/-- A script that fails there with a failure whose text has too many digits. -/
def untellable : String :=
  "  context[\"log\"].append('a')\n  raise ValueError(10**5000)"

/-- A text that can be read does what its statements do. -/
theorem runs_of_read {script : String} {statements : List StandIn.Statement}
    (hzero : '\x00' ∉ (Source.ofScript script).toList)
    (hread : (StandIn.read (Source.ofScript script)).toOption = some statements) :
    Runs brokenAlert (.map []) script
      (StandIn.runFrom (.map []) brokenAlert.toPage statements) := by
  have same : brokenAlert.compile = StandIn.compile := rfl
  have compiled : brokenAlert.compile (Source.ofScript script) =
      .ok fun record page => StandIn.runFrom record page statements := by
    rw [same]
    cases h : StandIn.read (Source.ofScript script) with
    | error d =>
        rw [h] at hread
        cases hread
    | ok ss =>
        rw [h] at hread
        cases hread
        simp only [StandIn.compile, List.contains_iff_mem, hzero, if_false, h]
  exact @Runs.compiled brokenAlert (.map []) script _ compiled

theorem intText?_power {n : Nat} (h : Number.digitLimit ≤ n) :
    Number.intText? ((10 ^ n : Nat) : Int) = none := by
  rw [← Option.not_isSome_iff_eq_none, Number.intText?_isSome_iff, Int.natAbs_natCast, not_lt]
  exact Nat.pow_le_pow_right (by decide) h

/-- An integer with more digits than a text may have. -/
def huge : StandIn.Message :=
  .number (10 ^ 5000)

/-- Asking for its text fails. -/
theorem raisedBy_huge :
    StandIn.raisedBy "ValueError" (some huge) = ⟨"ValueError", .error "ValueError"⟩ := by
  have none : Number.intText? ((10 ^ 5000 : Nat) : Int) = none := intText?_power (by decide)
  have wording : huge.wording "ValueError" = .error "ValueError" := by
    rw [huge, StandIn.Message.wording, none]
  have kind : (StandIn.kindAliases.lookup "ValueError").getD "ValueError" = "ValueError" := by
    decide +kernel
  have known : StandIn.failureKinds.contains "ValueError" = true := by decide +kernel
  rw [StandIn.raisedBy, kind]
  simp only [known, if_true, Option.map_some, Option.getD_some, wording]

theorem logged_run (statements : List StandIn.Statement) :
    StandIn.runFrom (.map []) brokenAlert.toPage (logged :: statements) =
      { StandIn.runFrom (.map []) brokenAlert.toPage statements with
        effects := .called (.routine "log") [.text "a"] ::
          (StandIn.runFrom (.map []) brokenAlert.toPage statements).effects } :=
  rfl

theorem halfway_runs : Runs brokenAlert (.map []) halfway
    ⟨[.called (.routine "log") [.text "a"]], .map [], brokenAlert.toPage,
      .failed (.ofText "NameError" "name 'nope' is not defined")⟩ := by
  have hzero : '\x00' ∉ (Source.ofScript halfway).toList := by decide +kernel
  have hread : (StandIn.read (Source.ofScript halfway)).toOption =
      some [logged, .callUnknown "nope"] := by decide +kernel
  have text : "name " ++ Text.quoted "nope" ++ " is not defined" =
      "name 'nope' is not defined" := by decide +kernel
  have runs := runs_of_read hzero hread
  rw [logged_run] at runs
  simp only [StandIn.runFrom, StandIn.Statement.run, text] at runs
  exact runs

theorem untellable_runs : Runs brokenAlert (.map []) untellable
    ⟨[.called (.routine "log") [.text "a"]], .map [], brokenAlert.toPage,
      .failed ⟨"ValueError", .error "ValueError"⟩⟩ := by
  have hzero : '\x00' ∉ (Source.ofScript untellable).toList := by decide +kernel
  have hread : (StandIn.read (Source.ofScript untellable)).toOption =
      some [logged, .fail "ValueError" (some huge)] := by decide +kernel
  have runs := runs_of_read hzero hread
  rw [logged_run] at runs
  simp only [StandIn.runFrom, StandIn.Statement.run, raisedBy_huge] at runs
  exact runs

/-- A click on a button with a script and an address, where there is no record. -/
def clicked (source : String) : Clicked :=
  click brokenAlert (.routine "fallback") .null (.text source) (.text "/x")

/-- What the first statement did stays done.  One script then has its alert, which fails, and an
outcome; out of the other one gets what is raised where its text is asked for.  Neither opens the
address. -/
theorem halfway_accounted :
    (clicked halfway).effects = [.called (.routine "log") [.text "a"],
      .called (.routine "alert") [alertOf "name 'nope' is not defined"]] ∧
    (clicked halfway).outcome = .ok ⟨.script, [⟨"ACTION_SCRIPT_ERROR",
      "name 'nope' is not defined", "action_script", none⟩]⟩ ∧
    (clicked untellable).effects = [.called (.routine "log") [.text "a"]] ∧
    (clicked untellable).outcome = .error (.untold "ValueError") := by
  obtain ⟨course, -⟩ :=
    click_accounted brokenAlert (.routine "fallback") .null (some halfway) (some "/x")
  obtain ⟨-, -, -, raises, scripts, -⟩ :=
    click_accounted brokenAlert (.routine "fallback") .null (some untellable) (some "/x")
  -- The first script: its alert fails, which changes nothing.
  have alert : Offers brokenAlert.toPage "open_alert_dialog" (.ok (some (.routine "alert"))) :=
    offers_iff.mpr rfl
  have tells : Tells (.ofText "NameError" "name 'nope' is not defined")
      (.ok "name 'nope' is not defined") := .own rfl (by decide)
  have taken : clicked halfway = _ :=
    (course _).mp (.failed rfl (by decide) halfway_runs (.alert tells alert .failed))
  -- The second script: nothing is reported.
  have silent : Reports brokenAlert.toPage (.routine "fallback") ⟨"ValueError", .error "ValueError"⟩
      ⟨[], .error (.untold "ValueError")⟩ := .untold (.untold rfl)
  obtain ⟨report, reports, effects, -⟩ := (scripts _ _ rfl (by decide) untellable_runs).1 _ rfl
  obtain rfl := (reports_iff.mp silent).symm.trans (reports_iff.mp reports)
  have told : Raises brokenAlert .null (some untellable) (some "/x") (.untold "ValueError") :=
    .scriptUntold rfl (by decide) untellable_runs rfl
  rw [taken]
  exact ⟨rfl, rfl, effects, (raises _ rfl).mpr told⟩

end Toolbar.Action
