/-
# `Toolbar.Proofs.Action.Page` — what a click finds on the page

The page decides what comes of a failure to be shown and of an address to be opened.  Each judgement
below lists the cases and what comes of them; as a function of the page it is the one that runs:

    Stands     what stands under a name in a value
    Offers     what can be called of the navigation, under a name
    Tells      the text of a failure, or what is raised where it is asked for
    Reports    the calls that show a failure, and what is told by them
    Opens      the calls that open an address, and the outcome

A judgement that is sound for a function and has a case for every input is its graph
(`iff_of_total`), so each of them is pinned by its cases.
-/
import Toolbar.Action.Click

namespace Toolbar

/-- A relation that holds of nothing but `a`, and of something, holds of `a` alone. -/
theorem iff_of_total {α : Type} {R : α → Prop} {a : α} (sound : ∀ r, R r → a = r)
    (total : ∃ r, R r) (r : α) : R r ↔ a = r := by
  constructor
  · exact sound r
  · rintro rfl
    obtain ⟨b, h⟩ := total
    rw [sound b h]
    exact h

/-- What stands under a name in a value. -/
inductive Surroundings.Stands (around : Surroundings) (name : String) :
    Value → Except Fault Value → Prop
  | key {fields : Fields} {v : Value} :
      fields.get? name = some v → Stands around name (.map fields) (.ok v)
  | noKey {fields : Fields} :
      fields.get? name = none → Stands around name (.map fields) (.ok .null)
  | ofNull : Stands around name .null (.ok .null)
  | other {v : Value} :
      v ≠ .null → v.fields? = none → Stands around name v (around.attributeOf v name)

theorem Surroundings.stands_iff {around : Surroundings} {name : String} {v : Value} :
    ∀ {r : Except Fault Value}, around.Stands name v r ↔ around.part v name = r := by
  intro r
  refine iff_of_total (fun r h => ?_) ?_ r
  · cases h with
    | key found => rw [part, found, Option.getD_some]
    | noKey found => rw [part, found, Option.getD_none]
    | ofNull => rfl
    | other null fields =>
        cases v with
        | null => exact absurd rfl null
        | map _ => cases fields
        | _ => rfl
  · cases v with
    | null => exact ⟨_, .ofNull⟩
    | map fields =>
        cases found : Fields.get? name fields with
        | some w => exact ⟨_, .key found⟩
        | none => exact ⟨_, .noKey found⟩
    | _ => exact ⟨_, .other nofun rfl⟩

namespace Action

/-! ## Navigation -/

/-- What a page offers under a name of its navigation: something that can be called or nothing,
unless a part of the page cannot be read. -/
inductive Offers (page : Page) (name : String) : Except Fault (Option Value) → Prop
  | unread {fault : Fault} : page.Stands "navigation" page.context (.error fault) →
      Offers page name (.error fault)
  | nowhere : page.Stands "navigation" page.context (.ok .null) → Offers page name (.ok none)
  | partUnread {navigation : Value} {fault : Fault} :
      page.Stands "navigation" page.context (.ok navigation) → navigation ≠ .null →
      page.Stands name navigation (.error fault) → Offers page name (.error fault)
  | uncallable {navigation f : Value} :
      page.Stands "navigation" page.context (.ok navigation) → navigation ≠ .null →
      page.Stands name navigation (.ok f) → page.isCallable f = false → Offers page name (.ok none)
  | callable {navigation f : Value} :
      page.Stands "navigation" page.context (.ok navigation) → navigation ≠ .null →
      page.Stands name navigation (.ok f) → page.isCallable f = true →
      Offers page name (.ok (some f))

theorem isNull_eq_false {v : Value} (h : v ≠ .null) : v.isNull = false := by
  cases v with
  | null => exact absurd rfl h
  | _ => rfl

theorem offers_iff {page : Page} {name : String} {r : Except Fault (Option Value)} :
    Offers page name r ↔ page.capability? name = r := by
  refine iff_of_total (fun r h => ?_) ?_ r
  · cases h with
    | unread h =>
        rw [Page.capability?, Surroundings.stands_iff.mp h]
        rfl
    | nowhere h =>
        rw [Page.capability?, Surroundings.stands_iff.mp h]
        rfl
    | partUnread h hnull hpart =>
        simp only [Page.capability?, Surroundings.stands_iff.mp h, bind, Except.bind,
          isNull_eq_false hnull, Bool.false_eq_true, if_false, Surroundings.stands_iff.mp hpart]
    | uncallable h hnull hpart hcall | callable h hnull hpart hcall =>
        simp only [Page.capability?, Surroundings.stands_iff.mp h, bind, Except.bind,
          isNull_eq_false hnull, Bool.false_eq_true, if_false, Surroundings.stands_iff.mp hpart,
          hcall, if_true, pure, Except.pure]
  · cases h : page.part page.context "navigation" with
    | error fault => exact ⟨_, .unread (Surroundings.stands_iff.mpr h)⟩
    | ok navigation =>
        by_cases hnull : navigation = .null
        · subst hnull
          exact ⟨_, .nowhere (Surroundings.stands_iff.mpr h)⟩
        cases hpart : page.part navigation name with
        | error fault =>
            exact ⟨_, .partUnread (Surroundings.stands_iff.mpr h) hnull
              (Surroundings.stands_iff.mpr hpart)⟩
        | ok f =>
            cases hcall : page.isCallable f with
            | false =>
                exact ⟨_, .uncallable (Surroundings.stands_iff.mpr h) hnull
                  (Surroundings.stands_iff.mpr hpart) hcall⟩
            | true =>
                exact ⟨_, .callable (Surroundings.stands_iff.mpr h) hnull
                  (Surroundings.stands_iff.mpr hpart) hcall⟩

/-- What a page offers can be called. -/
theorem Offers.isCallable {page : Page} {name : String} {f : Value}
    (h : Offers page name (.ok (some f))) : page.isCallable f = true := by
  cases h with
  | callable _ _ _ hcall => exact hcall

theorem call_of_callable {page : Page} {f : Value} (h : page.isCallable f = true) (v : Value) :
    page.call f v = ([.called f [v]], (page.answer f [v]).ending) :=
  if_pos h

/-! ## Texts -/

/-- The text of a failure, the name of its kind if it is empty, or the kind of what is raised where
it is asked for. -/
inductive Tells (e : Raised) : Except String String → Prop
  | own {text : String} : e.text = .ok text → text ≠ "" → Tells e (.ok text)
  | kind : e.text = .ok "" → Tells e (.ok e.kind)
  | untold {kind : String} : e.text = .error kind → Tells e (.error kind)

theorem Tells.shown {e : Raised} {r : Except String String} (h : Tells e r) :
    e.shown = r.mapError .untold := by
  cases h with
  | own htext hne =>
      simp only [Raised.shown, htext, if_neg fun h => hne (String.isEmpty_iff.mp h)]
      rfl
  | kind htext =>
      simp only [Raised.shown, htext]
      rfl
  | untold htext =>
      simp only [Raised.shown, htext]
      rfl

theorem exists_tells (e : Raised) : ∃ r, Tells e r := by
  rcases htext : e.text with kind | text
  · exact ⟨_, .untold htext⟩
  · by_cases hne : text = ""
    · subst hne
      exact ⟨_, .kind htext⟩
    · exact ⟨_, .own htext hne⟩

/-! ## Reports -/

/-- What a report tells whose call ends so: its text, however the call fails, unless what ends it is
no failure. -/
inductive Passes (text : String) : Ending → Except Escape String → Prop
  | done : Passes text .done (.ok text)
  | failed {e : Raised} : Passes text (.failed e) (.ok text)
  | left {kind : String} : Passes text (.left kind) (.error (.left kind))

/-- The arguments of the alert for a failure. -/
def alertOf (text : String) : Value :=
  .map [("text", .text text), ("title", .text "Error in Action Script")]

/-- A failure is reported on a page: by its alert if it offers one, else by the fallback if there is
one that can be called.  Without a text, and where the page cannot be read, nothing is done. -/
inductive Reports (page : Page) (fallback : Value) (e : Raised) : Report → Prop
  | untold {kind : String} : Tells e (.error kind) →
      Reports page fallback e ⟨[], .error (.untold kind)⟩
  | unread {text : String} {fault : Fault} : Tells e (.ok text) →
      Offers page "open_alert_dialog" (.error fault) →
      Reports page fallback e ⟨[], .error (.unread fault)⟩
  | alert {text : String} {f : Value} {told : Except Escape String} : Tells e (.ok text) →
      Offers page "open_alert_dialog" (.ok (some f)) →
      Passes text (page.answer f [alertOf text]).ending told →
      Reports page fallback e ⟨[.called f [alertOf text]], told⟩
  | fallback {text : String} {told : Except Escape String} : Tells e (.ok text) →
      Offers page "open_alert_dialog" (.ok none) → fallback ≠ .null →
      page.isCallable fallback = true →
      Passes text (page.answer fallback [.text text]).ending told →
      Reports page fallback e ⟨[.called fallback [.text text]], told⟩
  | nobody {text : String} : Tells e (.ok text) → Offers page "open_alert_dialog" (.ok none) →
      fallback = .null ∨ page.isCallable fallback = false →
      Reports page fallback e ⟨[], .ok text⟩

theorem exists_passes (text : String) (ending : Ending) : ∃ told, Passes text ending told := by
  cases ending with
  | done => exact ⟨_, .done⟩
  | failed e => exact ⟨_, .failed⟩
  | left kind => exact ⟨_, .left⟩

/-- A call that reports a text tells what its ending lets pass. -/
theorem through_eq {page : Page} {f v : Value} {text : String} {told : Except Escape String}
    (hcall : page.isCallable f = true) (h : Passes text (page.answer f [v]).ending told) :
    Report.through page f v text = ⟨[.called f [v]], told⟩ := by
  rw [Report.through, call_of_callable hcall]
  generalize (page.answer f [v]).ending = ending at h
  cases h with
  | done => rfl
  | failed => rfl
  | left => rfl

variable {page : Page} {fallback : Value} {e : Raised}

theorem Reports.report {r : Report} (h : Reports page fallback e r) : report page fallback e = r := by
  cases h with
  | untold htells =>
      simp only [Action.report, htells.shown]
      rfl
  | unread htells hoffers =>
      simp only [Action.report, htells.shown, offers_iff.mp hoffers]
      rfl
  | alert htells hoffers hpasses =>
      simp only [Action.report, htells.shown, offers_iff.mp hoffers]
      exact through_eq hoffers.isCallable hpasses
  | fallback htells hoffers hnull hcall hpasses =>
      simp only [Action.report, htells.shown, offers_iff.mp hoffers, isNull_eq_false hnull]
      exact through_eq hcall hpasses
  | @nobody text htells hoffers hnobody =>
      simp only [Action.report, htells.shown, offers_iff.mp hoffers]
      cases hnull : fallback.isNull with
      | true => rfl
      | false =>
          rcases hnobody with rfl | hcall
          · cases hnull
          · show Report.through page fallback (.text text) text = _
            rw [Report.through, Page.call, hcall]
            rfl

theorem exists_report (page : Page) (fallback : Value) (e : Raised) :
    ∃ r, Reports page fallback e r := by
  obtain ⟨_ | text, htells⟩ := exists_tells e
  · exact ⟨_, .untold htells⟩
  rcases hoffers : page.capability? "open_alert_dialog" with fault | _ | f
  · exact ⟨_, .unread htells (offers_iff.mpr hoffers)⟩
  · by_cases hnull : fallback = .null
    · exact ⟨_, .nobody htells (offers_iff.mpr hoffers) (.inl hnull)⟩
    · cases hcall : page.isCallable fallback with
      | false => exact ⟨_, .nobody htells (offers_iff.mpr hoffers) (.inr hcall)⟩
      | true =>
          obtain ⟨told, hpasses⟩ := exists_passes text (page.answer fallback [.text text]).ending
          exact ⟨_, .fallback htells (offers_iff.mpr hoffers) hnull hcall hpasses⟩
  · obtain ⟨told, hpasses⟩ := exists_passes text (page.answer f [alertOf text]).ending
    exact ⟨_, .alert htells (offers_iff.mpr hoffers) hpasses⟩

theorem reports_iff {r : Report} : Reports page fallback e r ↔ report page fallback e = r :=
  iff_of_total (fun _ h => h.report) (exists_report page fallback e) r

/-- At most one report is attempted. -/
theorem Reports.length_le {r : Report} (h : Reports page fallback e r) : r.effects.length ≤ 1 := by
  cases h with
  | untold _ | unread _ _ | nobody _ _ _ => exact Nat.zero_le 1
  | alert _ _ _ | fallback _ _ _ _ _ => exact Nat.le_refl 1

/-- What a report tells is the text of the failure. -/
theorem Reports.tells {effects : List Effect} {text : String}
    (h : Reports page fallback e ⟨effects, .ok text⟩) : Tells e (.ok text) := by
  cases h with
  | alert htells _ hpasses =>
      generalize (page.answer _ _).ending = ending at hpasses
      cases hpasses <;> exact htells
  | fallback htells _ _ _ hpasses =>
      generalize (page.answer _ _).ending = ending at hpasses
      cases hpasses <;> exact htells
  | nobody htells _ _ => exact htells

/-! ## Addresses -/

/-- An address is opened on a page. -/
inductive Opens (page : Page) (url : String) : List Effect → Except Escape Outcome → Prop
  | unread {fault : Fault} : Offers page "open_url" (.error fault) →
      Opens page url [] (.error (.unread fault))
  | closed : Offers page "open_url" (.ok none) →
      Opens page url [] (.ok ⟨.navigate, [⟨"CLICK_NAVIGATION_UNAVAILABLE",
        "host cannot open URLs", "url", some ("url", .text url)⟩]⟩)
  | opened {f : Value} : Offers page "open_url" (.ok (some f)) →
      (page.answer f [.text url]).ending = .done →
      Opens page url [.called f [.text url]] (.ok ⟨.navigate, []⟩)
  | unopened {f : Value} {e : Raised} {text : String} : Offers page "open_url" (.ok (some f)) →
      (page.answer f [.text url]).ending = .failed e → e.text = .ok text →
      Opens page url [.called f [.text url]] (.ok ⟨.navigate,
        [⟨"CLICK_NAVIGATION_FAILED", text, "url", some ("url", .text url)⟩]⟩)
  | untold {f : Value} {e : Raised} {kind : String} : Offers page "open_url" (.ok (some f)) →
      (page.answer f [.text url]).ending = .failed e → e.text = .error kind →
      Opens page url [.called f [.text url]] (.error (.untold kind))
  | left {f : Value} {kind : String} : Offers page "open_url" (.ok (some f)) →
      (page.answer f [.text url]).ending = .left kind →
      Opens page url [.called f [.text url]] (.error (.left kind))

theorem navigate_of_offers {f : Value} (h : Offers page "open_url" (.ok (some f)))
    (record url : Value) :
    navigate page record url =
      ⟨[.called f [url]], record, page, opened url (page.answer f [url]).ending⟩ := by
  simp only [navigate, offers_iff.mp h, call_of_callable h.isCallable]

theorem Opens.navigate {url : String} {es : List Effect} {outcome : Except Escape Outcome}
    (h : Opens page url es outcome) (record : Value) :
    navigate page record (.text url) = ⟨es, record, page, outcome⟩ := by
  cases h with
  | unread h | closed h => simp only [Action.navigate, offers_iff.mp h]
  | opened h hdone => rw [navigate_of_offers h, hdone]; rfl
  | unopened h hfailed htext => rw [navigate_of_offers h, hfailed, Action.opened, htext]
  | untold h hfailed htext => rw [navigate_of_offers h, hfailed, Action.opened, htext]
  | left h hleft => rw [navigate_of_offers h, hleft]; rfl

theorem exists_opens (page : Page) (url : String) : ∃ es outcome, Opens page url es outcome := by
  rcases hoffers : page.capability? "open_url" with fault | _ | f
  · exact ⟨_, _, .unread (offers_iff.mpr hoffers)⟩
  · exact ⟨_, _, .closed (offers_iff.mpr hoffers)⟩
  · cases hending : (page.answer f [.text url]).ending with
    | done => exact ⟨_, _, .opened (offers_iff.mpr hoffers) hending⟩
    | left kind => exact ⟨_, _, .left (offers_iff.mpr hoffers) hending⟩
    | failed e =>
        cases htext : e.text with
        | ok text => exact ⟨_, _, .unopened (offers_iff.mpr hoffers) hending htext⟩
        | error kind => exact ⟨_, _, .untold (offers_iff.mpr hoffers) hending htext⟩

end Action

end Toolbar
