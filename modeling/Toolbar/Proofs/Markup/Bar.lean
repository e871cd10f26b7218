/-
# `Toolbar.Proofs.Markup.Bar` — what data can do to the markup of a bar

A bar is its wrapper around one piece for each button, in order.  The piece of a button is a
skeleton in which the fields of the button stand escaped:

    skeleton    what is fixed, and the places of fields; it depends on the shape and the index alone
    Shape       whether the button is a link, and has a tooltip and an icon
    filled      the markup: what is fixed, with an escaped text in the place of each field

An escaped text has none of the characters that end a text or an attribute in markup, and tells the
text that was escaped; so these characters of a bar are those of its skeletons, whatever the fields
are (`marks_bar`).  A button that cannot be rendered becomes a notice, and leaves the others as they
are.
-/
import Mathlib.Data.Nat.Digits.Defs
import Toolbar.Markup.Bar

namespace Toolbar.Markup

open Text Button

/-! ## Escaped texts -/

/-- The text that stands escaped in markup. -/
def unescapeChars : List Char → List Char
  | [] => []
  | '&' :: 'a' :: 'm' :: 'p' :: ';' :: cs => '&' :: unescapeChars cs
  | '&' :: 'l' :: 't' :: ';' :: cs => '<' :: unescapeChars cs
  | '&' :: 'g' :: 't' :: ';' :: cs => '>' :: unescapeChars cs
  | '&' :: '#' :: '3' :: '9' :: ';' :: cs => '\'' :: unescapeChars cs
  | '&' :: '#' :: '3' :: '4' :: ';' :: cs => '"' :: unescapeChars cs
  | c :: cs => c :: unescapeChars cs

def unescape (s : String) : String :=
  String.ofList (unescapeChars s.toList)

/-- The characters that end a text or an attribute in markup. -/
def breaking : List Char :=
  ['<', '>', '"', '\'']

/-- The references that stand for characters. -/
def references : List (Char × List Char) :=
  [('&', "&amp;".toList), ('<', "&lt;".toList), ('>', "&gt;".toList), ('\'', "&#39;".toList),
    ('"', "&#34;".toList)]

theorem not_breaking_of_mem_reference {r : Char × List Char} (hr : r ∈ references) {d : Char}
    (hd : d ∈ r.2) : d ∉ breaking := by
  have all : (references.all fun r => r.2.all fun d => !breaking.contains d) = true := by decide
  simpa using List.all_eq_true.mp (List.all_eq_true.mp all r hr) d hd

theorem isDigit_eq_false_of_mem_references {r : Char × List Char} (hr : r ∈ references) :
    r.1.isDigit = false := by
  have all : (references.all fun r => !r.1.isDigit) = true := by decide
  simpa using List.all_eq_true.mp all r hr

/-- A character is written as its reference, or stands for itself. -/
theorem escapeChar_cases (c : Char) :
    (c, escapeChar c) ∈ references ∨ c ≠ '&' ∧ c ∉ breaking ∧ escapeChar c = [c] := by
  by_cases special : c ∈ '&' :: breaking
  · left
    simp only [breaking, List.mem_cons, List.not_mem_nil, or_false] at special
    rcases special with rfl | rfl | rfl | rfl | rfl <;> simp [escapeChar, references]
  · right
    simp only [breaking, List.mem_cons, List.not_mem_nil, or_false, not_or] at special
    obtain ⟨amp, lt, gt, quote, apostrophe⟩ := special
    exact ⟨amp, by simp [breaking, lt, gt, quote, apostrophe],
      by simp [escapeChar, amp, lt, gt, quote, apostrophe]⟩

theorem unescapeChars_escapeChar (c : Char) (cs : List Char) :
    unescapeChars (escapeChar c ++ cs) = c :: unescapeChars cs := by
  obtain reference | ⟨amp, -, itself⟩ := escapeChar_cases c
  · simp only [references, List.mem_cons, List.not_mem_nil, or_false, Prod.mk.injEq] at reference
    rcases reference with ⟨rfl, written⟩ | ⟨rfl, written⟩ | ⟨rfl, written⟩ | ⟨rfl, written⟩ |
      ⟨rfl, written⟩ <;> rw [written] <;> rfl
  · rw [itself]
    simp [unescapeChars, amp]

/-- What is escaped is read back. -/
theorem unescape_escape (s : String) : unescape (escape s) = s := by
  have chars : ∀ cs : List Char, unescapeChars (cs.flatMap escapeChar) = cs := by
    intro cs
    induction cs with
    | nil => rfl
    | cons c cs ih => rw [List.flatMap_cons, unescapeChars_escapeChar, ih]
  rw [unescape, escape, String.toList_ofList, chars, String.ofList_toList]

theorem not_breaking_of_mem_escapeChar {c d : Char} (h : d ∈ escapeChar c) : d ∉ breaking := by
  obtain reference | ⟨-, plain, itself⟩ := escapeChar_cases c
  · exact not_breaking_of_mem_reference reference h
  · rw [itself] at h
    obtain rfl := List.mem_singleton.mp h
    exact plain

/-- An escaped text ends no text and no attribute. -/
theorem not_breaking_of_mem_escape {s : String} {c : Char} (h : c ∈ (escape s).toList) :
    c ∉ breaking := by
  rw [escape, String.toList_ofList] at h
  obtain ⟨d, -, hd⟩ := List.mem_flatMap.mp h
  exact not_breaking_of_mem_escapeChar hd

theorem escape_digits {cs : List Char} (digits : ∀ c ∈ cs, c.isDigit = true) :
    escape (String.ofList cs) = String.ofList cs := by
  have itself : ∀ c ∈ cs, escapeChar c = [c] := by
    intro c hc
    obtain reference | ⟨-, -, itself⟩ := escapeChar_cases c
    · exact absurd (digits c hc) (by simp [isDigit_eq_false_of_mem_references reference])
    · exact itself
  rw [escape, String.toList_ofList, List.flatMap_def, List.map_congr_left itself,
    ← List.flatMap_def, List.flatMap_singleton']

/-! ## Skeletons -/

/-- The fields of a button that stand in its markup. -/
inductive Slot where
  | url
  | tooltip
  | icon
  | label
deriving DecidableEq

namespace Slot

def key : Slot → String
  | url => "url"
  | tooltip => "tooltip"
  | icon => "icon"
  | label => "label"

def value (c : Config) : Slot → Value
  | url => c.url
  | tooltip => c.tooltip
  | icon => c.icon
  | label => c.label

end Slot

/-- A part of a skeleton. -/
inductive Segment where
  | fixed (s : String)
  | field (k : Slot)
deriving DecidableEq

/-- What the skeleton of a button depends on. -/
structure Shape where
  asLink : Bool
  hasTooltip : Bool
  hasIcon : Bool
deriving DecidableEq

/-- The shape of a configuration: three of its fields are vacant or not. -/
def Shape.of (c : Config) : Shape where
  asLink := !c.showAsLink.isVacant
  hasTooltip := !c.tooltip.isVacant
  hasIcon := !c.icon.isVacant

/-- The fields that a button of a shape shows. -/
def Shape.shows (shape : Shape) : Slot → Bool
  | .url => shape.asLink
  | .tooltip => shape.hasTooltip
  | .icon => !shape.asLink && shape.hasIcon
  | .label => true

/-- A field with what stands around it, where it is there. -/
def optional (there : Bool) (before : String) (k : Slot) (after : String) : List Segment :=
  if there then [.fixed before, .field k, .fixed after] else []

/-- The skeleton of a link. -/
def linkSkeleton (hasTooltip : Bool) : List Segment :=
  [.fixed "<a class=\"smart-button-link\" href=\"", .field .url,
    .fixed "\" target=\"_blank\" rel=\"noopener noreferrer\""]
  ++ optional hasTooltip " title=\"" .tooltip "\""
  ++ [.fixed ">", .field .label, .fixed "</a>"]

/-- The skeleton of a button element. -/
def elementSkeleton (hasTooltip hasIcon : Bool) (index : Nat) : List Segment :=
  [.fixed "<button type=\"button\" class=\"smart-button\" data-index=\"",
    .fixed (String.ofList (decimalDigits index)), .fixed "\""]
  ++ optional hasTooltip " title=\"" .tooltip "\""
  ++ [.fixed ">"]
  ++ optional hasIcon "<i class=\"smart-button-icon ms-Icon ms-Icon--" .icon
    "\" aria-hidden=\"true\"></i>"
  ++ [.fixed "<span>", .field .label, .fixed "</span></button>"]

/-- The skeleton of a button. -/
def skeleton (shape : Shape) (index : Nat) : List Segment :=
  if shape.asLink then linkSkeleton shape.hasTooltip
  else elementSkeleton shape.hasTooltip shape.hasIcon index

def Segment.markup (text : Slot → String) : Segment → String
  | .fixed s => s
  | .field k => escape (text k)

/-- A skeleton with escaped texts in the places of its fields. -/
def filled (segments : List Segment) (text : Slot → String) : String :=
  String.join (segments.map (Segment.markup text))

/-- The fields that have a place among some segments. -/
def slots (segments : List Segment) : List Slot :=
  segments.filterMap fun
    | .fixed _ => none
    | .field k => some k

/-- Every field that a button shows has one place. -/
theorem slots_skeleton (shape : Shape) (index : Nat) :
    slots (skeleton shape index) =
      [Slot.url, .tooltip, .icon, .label].filter shape.shows := by
  obtain ⟨asLink, hasTooltip, hasIcon⟩ := shape
  cases asLink <;> cases hasTooltip <;> cases hasIcon <;> rfl

/-- The characters of a text that end texts and attributes. -/
def marks (s : String) : List Char :=
  s.toList.filter (· ∈ breaking)

theorem marks_append (s t : String) : marks (s ++ t) = marks s ++ marks t := by
  simp [marks]

theorem marks_escape (s : String) : marks (escape s) = [] :=
  List.filter_eq_nil_iff.mpr fun _ hc => by simpa using not_breaking_of_mem_escape hc

section Filling

variable {text other : Slot → String} {segments more : List Segment}

theorem filled_nil : filled [] text = "" :=
  rfl

theorem filled_cons {segment : Segment} :
    filled (segment :: segments) text = segment.markup text ++ filled segments text := by
  rw [filled, List.map_cons, String.join_cons, filled]

theorem filled_append :
    filled (segments ++ more) text = filled segments text ++ filled more text := by
  rw [filled, List.map_append, String.join_append, filled, filled]

theorem filled_optional {there : Bool} {before after : String} {k : Slot} :
    filled (optional there before k after) text =
      if there then before ++ escape (text k) ++ after else "" := by
  cases there with
  | false => rfl
  | true => simp [optional, filled, Segment.markup, String.append_assoc]

/-- What fields hold does not change the marks of a filled skeleton. -/
theorem marks_filled : marks (filled segments text) = marks (filled segments other) := by
  induction segments with
  | nil => rfl
  | cons segment segments ih =>
      rw [filled_cons, filled_cons, marks_append, marks_append, ih]
      cases segment with
      | fixed s => rfl
      | field k => rw [Segment.markup, Segment.markup, marks_escape, marks_escape]

end Filling

/-! ## Plain buttons -/

theorem get?_plainFields (key : String) (fields : Fields) :
    Fields.get? key (plainFields fields) = (Fields.get? key fields).map plain := by
  induction fields with
  | nil => rfl
  | cons f fs ih =>
      rw [plainFields, Fields.get?, Fields.get?]
      split
      · rfl
      · exact ih

/-- A value made plain is vacant as before: dates and stamps become texts that are not empty. -/
theorem isVacant_plain (v : Value) : (plain v).isVacant = v.isVacant := by
  cases v with
  | date d => simp [plain, Value.isVacant, Date.display, Date.isoText]
  | stamp t => simp [plain, Value.isVacant, Stamp.plainText, Stamp.isoText]
  | list items => cases items <;> rfl
  | map fields => cases fields <;> rfl
  | _ => rfl

/-- The text that a null or a text is where a text is wanted. -/
def wording : Value → Option String
  | .null => some "None"
  | .text s => some s
  | _ => none

theorem shown_plain {v : Value} {s : String} (h : wording v = some s) :
    shown (plain v) = .ok (escape s) := by
  cases v with
  | null =>
      cases h
      rfl
  | text t =>
      cases h
      rfl
  | _ => cases h

theorem shown_index {index : Nat} (short : index < 10 ^ Number.digitLimit) :
    shown (.int index) = .ok (String.ofList (decimalDigits index)) := by
  have length : (decimalDigits index).length ≤ Number.digitLimit :=
    Nat.toDigits_length 10 index Number.digitLimit (by decide) short
  have nonneg : ¬ (index : Int) < 0 := by omega
  have text : (Value.int index).plainText = .ok (String.ofList (decimalDigits index)) := by
    simp [Value.plainText, Value.plainText?, Value.int, Value.literal?, Number.text?,
      Number.intText?, Binary64.signed, Nat.not_lt.mpr length, nonneg]
  rw [shown, textOf, text]
  exact congrArg Except.ok (escape_digits fun c hc =>
    Nat.isDigit_of_mem_toDigits (b := 10) (by decide) (by decide) hc)

section Shown

variable {c : Config} {text : Slot → String} {index : Nat}

theorem buttonField_slot (c : Config) (k : Slot) :
    buttonField (plain (Shown.toValue ⟨c⟩)) k.key = .ok (plain (k.value c)) := by
  rw [Shown.toValue, plain, buttonField, get?_plainFields]
  cases k <;> rfl

theorem buttonField_showAsLink (c : Config) :
    buttonField (plain (Shown.toValue ⟨c⟩)) "show_as_link" = .ok (plain c.showAsLink) := by
  rw [Shown.toValue, plain, buttonField, get?_plainFields]
  rfl

theorem slot_plain {k : Slot} (worded : wording (k.value c) = some (text k)) :
    slot (plain (Shown.toValue ⟨c⟩)) k.key = .ok (escape (text k)) := by
  rw [slot, buttonField_slot]
  exact shown_plain worded

theorem whenField_plain {k : Slot} (worded : wording (k.value c) = some (text k))
    (before after : String) :
    whenField (plain (Shown.toValue ⟨c⟩)) k.key before after =
      .ok (filled (optional (!(k.value c).isVacant) before k after) text) := by
  rw [whenField, buttonField_slot, filled_optional]
  show (if (plain (k.value c)).isVacant then _ else _) = _
  rw [isVacant_plain]
  cases (k.value c).isVacant with
  | true => rfl
  | false =>
      rw [if_neg Bool.false_ne_true, shown_plain worded]
      rfl

theorem link_plain (worded : ∀ k, wording (k.value c) = some (text k)) :
    link (plain (Shown.toValue ⟨c⟩)) =
      .ok (filled (linkSkeleton (Shape.of c).hasTooltip) text) := by
  have url := slot_plain (worded .url)
  have tooltip := whenField_plain (worded .tooltip) " title=\"" "\""
  have label := slot_plain (worded .label)
  simp only [Slot.key, Slot.value] at url tooltip label
  rw [link, url, tooltip, label]
  refine congrArg Except.ok ?_
  simp only [linkSkeleton, Shape.of, filled_append, filled_cons, filled_nil, Segment.markup,
    String.append_assoc, String.append_empty]

theorem element_plain (worded : ∀ k, wording (k.value c) = some (text k))
    (short : index < 10 ^ Number.digitLimit) :
    element (plain (Shown.toValue ⟨c⟩)) (.int index) =
      .ok (filled (elementSkeleton (Shape.of c).hasTooltip (Shape.of c).hasIcon index) text) := by
  have tooltip := whenField_plain (worded .tooltip) " title=\"" "\""
  have icon := whenField_plain (worded .icon) "<i class=\"smart-button-icon ms-Icon ms-Icon--"
    "\" aria-hidden=\"true\"></i>"
  have label := slot_plain (worded .label)
  simp only [Slot.key, Slot.value] at tooltip icon label
  rw [element, shown_index short, tooltip, icon, label]
  refine congrArg Except.ok ?_
  simp only [elementSkeleton, Shape.of, filled_append, filled_cons, filled_nil, Segment.markup,
    String.append_assoc, String.append_empty]

/-- The piece of a button is its skeleton with its texts in it. -/
theorem piece_eq (worded : ∀ k, wording (k.value c) = some (text k))
    (short : index < 10 ^ Number.digitLimit) :
    piece none (Shown.toValue ⟨c⟩) index = filled (skeleton (.of c) index) text := by
  have rendered : button none (Shown.toValue ⟨c⟩) (.int index) =
      .ok (filled (skeleton (.of c) index) text) := by
    show plainButton (plain (Shown.toValue ⟨c⟩)) (.int index) = _
    rw [plainButton, buttonField_showAsLink]
    show (if (plain c.showAsLink).isVacant then _ else _) = _
    rw [isVacant_plain, skeleton, element_plain worded short, link_plain worded, Shape.of]
    cases c.showAsLink.isVacant <;> rfl
  rw [piece, rendered]

end Shown

/-! ## The bar -/

/-- What stands around the pieces of a bar. -/
def wrapped (pieces : List String) : String :=
  "<div class=\"smart-button-bar\">" ++ String.join pieces ++ "</div>"

/-- The markup that stands for a button that cannot be rendered. -/
def notice : String :=
  "<div class=\"message-bar message-bar--error\" role=\"alert\">"
    ++ "An error occurred while rendering this button." ++ "</div>"

/-- The pieces of a bar, each from its button and index alone. -/
def pieces (own : Option OwnTemplate) (buttons : List Value) : List String :=
  buttons.mapIdx fun i b => piece own b i

theorem piecesFrom_eq (own : Option OwnTemplate) (index : Nat) (buttons : List Value) :
    piecesFrom own index buttons = buttons.mapIdx fun i b => piece own b (i + index) := by
  induction buttons generalizing index with
  | nil => rfl
  | cons b bs ih =>
      rw [piecesFrom, ih, List.mapIdx_cons, Nat.zero_add]
      simp only [Nat.add_assoc, Nat.add_comm 1]

theorem bar_eq (own : Option OwnTemplate) (buttons : List Value) :
    bar own buttons = wrapped (pieces own buttons) := by
  unfold bar wrapped pieces
  rw [piecesFrom_eq]
  simp only [Nat.add_zero]

theorem message_buttonFault : message buttonFaultText "error" = notice := by
  decide +kernel

theorem piece_of_error {own : Option OwnTemplate} {b : Value} {index : Nat} {e : Fault}
    (h : button own b (.int index) = .error e) : piece own b index = notice := by
  rw [piece, h]
  exact message_buttonFault

theorem pieces_set (own : Option OwnTemplate) (buttons : List Value) (i : Nat) (b : Value) :
    pieces own (buttons.set i b) = (pieces own buttons).set i (piece own b i) := by
  apply List.ext_getElem?
  intro j
  simp [pieces, List.getElem?_set]

theorem marks_join (texts : List String) : marks (String.join texts) = texts.flatMap marks := by
  induction texts with
  | nil => rfl
  | cons s ss ih => rw [String.join_cons, marks_append, ih, List.flatMap_cons]

theorem marks_wrapped_congr {texts others : List String} (h : texts.map marks = others.map marks) :
    marks (wrapped texts) = marks (wrapped others) := by
  -- The wrapper is unfolded first: `rw` would compare the two texts character by character.
  unfold wrapped
  rw [marks_append, marks_append, marks_append, marks_append, marks_join, marks_join,
    List.flatMap_def, List.flatMap_def, h]

/-- The marks of a bar are those of its empty skeletons, whatever texts the buttons hold. -/
theorem marks_bar {cs : List Config} (worded : ∀ c ∈ cs, ∀ k, (wording (Slot.value c k)).isSome)
    (short : cs.length ≤ 10 ^ Number.digitLimit) :
    marks (bar none (cs.map fun c => Shown.toValue ⟨c⟩)) =
      marks (wrapped ((cs.map Shape.of).mapIdx fun i shape =>
        filled (skeleton shape i) fun _ => "")) := by
  have each : (pieces none (cs.map fun c => Shown.toValue ⟨c⟩)).map marks =
      ((cs.map Shape.of).mapIdx fun i shape =>
        filled (skeleton shape i) fun _ => "").map marks := by
    apply List.ext_getElem
    · simp [pieces]
    intro i hi _
    have hi : i < cs.length := by simpa [pieces] using hi
    -- What the fields of this button hold, which does not matter in the end.
    have texts : ∀ k, wording (Slot.value cs[i] k) =
        some ((wording (Slot.value cs[i] k)).get (worded _ (List.getElem_mem hi) k)) :=
      fun k => (Option.some_get _).symm
    simp only [pieces, List.getElem_map, List.getElem_mapIdx]
    rw [piece_eq texts (Nat.lt_of_lt_of_le hi short)]
    exact marks_filled
  rw [bar_eq]
  exact marks_wrapped_congr each

/-- **Data cannot change the markup of a bar.**  The bar is its wrapper around one piece for each
button, in order, which depends on the button and its index alone.  Without a template of one's own,
the piece of a button whose fields are null or texts, at an index of no more digits than a text may
have, is the skeleton of its shape and index with the escaped texts in it, each in one place; an
escaped text has no mark and tells what was escaped, so the marks of the bar are those of its
skeletons.  With any template, a button that cannot be rendered becomes the notice, and a change of
one button leaves the other pieces as they are. -/
theorem bar_confines_fields :
    (∀ (own : Option OwnTemplate) (buttons : List Value),
      bar own buttons = wrapped (buttons.mapIdx fun i b => piece own b i)) ∧
    (∀ (c : Config) (text : Slot → String) (index : Nat),
      (∀ k, wording (k.value c) = some (text k)) → index < 10 ^ Number.digitLimit →
      piece none (Shown.toValue ⟨c⟩) index = filled (skeleton (Shape.of c) index) text) ∧
    (∀ (shape : Shape) (index : Nat),
      slots (skeleton shape index) = [Slot.url, .tooltip, .icon, .label].filter shape.shows) ∧
    (∀ s : String, (∀ c ∈ (escape s).toList, c ∉ breaking) ∧ unescape (escape s) = s) ∧
    (∀ cs : List Config, (∀ c ∈ cs, ∀ k, (wording (Slot.value c k)).isSome) →
      cs.length ≤ 10 ^ Number.digitLimit →
      marks (bar none (cs.map fun c => Shown.toValue ⟨c⟩)) =
        marks (wrapped ((cs.map Shape.of).mapIdx fun i shape =>
          filled (skeleton shape i) fun _ => ""))) ∧
    (∀ (own : Option OwnTemplate) (b : Value) (index : Nat) (e : Fault),
      button own b (.int index) = .error e → piece own b index = notice) ∧
    ∀ (own : Option OwnTemplate) (buttons : List Value) (i : Nat) (b : Value),
      bar own (buttons.set i b) =
        wrapped ((buttons.mapIdx fun i b => piece own b i).set i (piece own b i)) := by
  refine ⟨bar_eq, fun c text index => piece_eq, slots_skeleton, fun s => ?_,
    fun cs => marks_bar, fun own b index e => piece_of_error,
    fun own buttons i b => ?_⟩
  · exact ⟨fun c => not_breaking_of_mem_escape, unescape_escape s⟩
  · rw [bar_eq, pieces_set, pieces]

/-- A link with marks in its fields. -/
def quotedLink : Config where
  label := .text "<b>\"&\"</b>"
  url := .text "/a?b='c'"
  showAsLink := .bool true

/-- Its texts. -/
def quotedText : Slot → String
  | .url => "/a?b='c'"
  | .label => "<b>\"&\"</b>"
  | .tooltip | .icon => "None"

theorem quotedLink_confined :
    bar none [Shown.toValue ⟨quotedLink⟩, .map [("url", .text "x")]] =
        wrapped [filled (linkSkeleton false) quotedText, notice] ∧
      filled (linkSkeleton false) quotedText =
        "<a class=\"smart-button-link\" href=\"/a?b=&#39;c&#39;\" target=\"_blank\" "
          ++ "rel=\"noopener noreferrer\">&lt;b&gt;&#34;&amp;&#34;&lt;/b&gt;</a>" ∧
      marks (bar none [Shown.toValue ⟨quotedLink⟩]) =
        marks (wrapped [filled (linkSkeleton false) fun _ => ""]) := by
  obtain ⟨bars, resolved, -, -, marked, broken, -⟩ := bar_confines_fields
  have worded : ∀ k : Slot, wording (k.value quotedLink) = some (quotedText k) := by
    intro k
    cases k <;> rfl
  refine ⟨?_, by decide +kernel, ?_⟩
  · have link : piece none (Shown.toValue ⟨quotedLink⟩) 0 = filled (linkSkeleton false) quotedText :=
      resolved quotedLink quotedText 0 worded (Nat.pow_pos (by decide))
    have fault : piece none (.map [("url", .text "x")]) 1 = notice :=
      broken none _ 1 .undefined (by decide +kernel)
    rw [bars, List.mapIdx_cons, List.mapIdx_cons, link, fault, List.mapIdx_nil]
  · refine marked [quotedLink] (List.forall_mem_singleton.mpr fun k => ?_) (Nat.pow_pos (by decide))
    rw [worded, Option.isSome_some]

end Toolbar.Markup
