/-
# `Toolbar.Proofs.Settings.Merge` — a file never changes a variable that is set

The variables of a file are added one after the other to an environment that grows with them, and
each is added only if it is not set there.  So one invariant says both that a variable of the
environment keeps its value and that of several lines for one name the first counts: after any
number of entries a variable has the value that it had, or else the value of the first entry of that
name (`addAll_get?`).

What a line sets is described by the parts of the line (`Sets`), and the lines of the file by what
it is put together from (`Lines`).

    Sets         a line sets a variable to a value
    FirstSets    a line sets a variable that no line before it sets
    Merges       what becomes of an environment
-/
import Toolbar.Proofs.Text.Lines
import Toolbar.Settings.EnvFile

namespace Toolbar.Settings.EnvFile

open Text

/-! ## What a line sets -/

/-- A line sets a variable: between blanks it has a name, the first `=` and a value, each between
blanks, and is no comment; the name is not empty.  The value may stand in double quotes and, inside
of these, in single quotes. -/
def Sets (line name value : List Char) : Prop :=
  ∃ text left right bare inner, Stripped isBlank line text ∧ text.head? ≠ some '#' ∧
    text = left ++ '=' :: right ∧ '=' ∉ left ∧ Stripped isBlank left name ∧ name ≠ [] ∧
    Stripped isBlank right bare ∧ Stripped (· == '"') bare inner ∧ Stripped (· == '\'') inner value

/-- The parts that a line is cut into. -/
theorem entry?_eq_some {line name value : String} :
    entry? line = some (name, value) ↔ ∃ left right,
      cutAt? '=' (trim line.toList) = some (left, right) ∧ (trim line.toList).head? ≠ some '#' ∧
      trim left ≠ [] ∧ name.toList = trim left ∧ value.toList = unquoted (trim right) := by
  dsimp only [ entry?]
  constructor
  · intro h
    split at h
    · cases h
    next counts =>
      split at h
      · cases h
      next left right hcut =>
        split at h
        · cases h
        next named =>
          cases h
          refine ⟨left, right, hcut, ?_, by simpa using named, String.toList_ofList,
            String.toList_ofList⟩
          intro comment
          rw [comment] at counts
          simp at counts
  · rintro ⟨left, right, hcut, noComment, named, hname, hvalue⟩
    have filled : trim line.toList ≠ [] := by
      intro empty
      rw [empty] at hcut
      cases hcut
    have counts :
        ¬ ((trim line.toList).isEmpty || (trim line.toList).head? == some '#') = true := by
      simpa using ⟨filled, noComment⟩
    rw [if_neg counts, hcut]
    dsimp only
    rw [if_neg (by simpa using named), ← hname, ← hvalue, String.ofList_toList,
      String.ofList_toList]

theorem entry?_eq_some_iff {line name value : String} :
    entry? line = some (name, value) ↔ Sets line.toList name.toList value.toList := by
  simp only [entry?_eq_some, Sets, stripped_iff, cutAt?_eq_some_iff]
  constructor
  · rintro ⟨left, right, ⟨text, noSep⟩, noComment, named, hname, hvalue⟩
    exact ⟨_, left, right, _, _, rfl, noComment, text, noSep, hname, by rwa [hname], rfl, rfl,
      hvalue⟩
  · rintro ⟨_, left, right, _, _, rfl, noComment, text, noSep, hname, named, rfl, rfl, hvalue⟩
    exact ⟨left, right, ⟨text, noSep⟩, noComment, by rwa [hname] at named, hname, hvalue⟩

/-- The characters of a name and of its value are characters of the line. -/
theorem Sets.mem {line name value : List Char} (h : Sets line name value) {c : Char}
    (hc : c ∈ name ∨ c ∈ value) : c ∈ line := by
  obtain ⟨text, left, right, bare, inner, hline, -, htext, -, hname, -, hbare, hinner, hvalue⟩ := h
  refine hline.mem ?_
  rw [htext]
  rcases hc with hc | hc
  · exact List.mem_append_left _ (hname.mem hc)
  · exact List.mem_append_right _ (List.mem_cons_of_mem _ (hbare.mem (hinner.mem (hvalue.mem hc))))

/-- A line sets a variable that no line before it sets. -/
def FirstSets (ls : List (List Char)) (name value : List Char) : Prop :=
  ∃ earlier line later, ls = earlier ++ line :: later ∧ Sets line name value ∧
    ∀ l ∈ earlier, ∀ v, ¬ Sets l name v

/-! ## Adding entries -/

theorem lookup_cons {name : String} (e : String × String) (es : List (String × String)) :
    (e :: es).lookup name = if name = e.1 then some e.2 else es.lookup name := by
  obtain ⟨key, value⟩ := e
  rw [List.lookup_cons]
  by_cases same : name = key
  · rw [if_pos same, same, beq_self_eq_true]
  · rw [if_neg same, beq_false_of_ne same]

/-- An entry is added unless its variable is set, and changes no other variable. -/
theorem add_get? (env : Environment) {e : String × String}
    (plain : isPlain e.1 = true ∧ isPlain e.2 = true) :
    ∃ env', add env e = .ok env' ∧
      ∀ name, env'.get? name = (env.get? name).or (if name = e.1 then some e.2 else none) := by
  by_cases set : (env.get? e.1).isSome = true
  · refine ⟨env, if_pos set, fun name => ?_⟩
    by_cases same : name = e.1
    · obtain ⟨value, hvalue⟩ := Option.isSome_iff_exists.mp set
      rw [same, hvalue, Option.some_or]
    · rw [if_neg same, Option.or_none]
  · refine ⟨env ++ [e], ?_, fun name => ?_⟩
    · rw [add, if_neg set, if_pos (by simpa using plain)]
    · rw [Environment.get?, List.lookup_append, lookup_cons, List.lookup_nil]
      rfl

/-- After any number of entries a variable has the value that it had, or else the value of the first
entry of that name. -/
theorem addAll_get? (env : Environment) {es : List (String × String)}
    (plain : ∀ e ∈ es, isPlain e.1 = true ∧ isPlain e.2 = true) :
    ∃ env', addAll env es = .ok env' ∧
      ∀ name, env'.get? name = (env.get? name).or (es.lookup name) := by
  induction es generalizing env with
  | nil => exact ⟨env, rfl, fun name => Option.or_none.symm⟩
  | cons e es ih =>
      obtain ⟨first, plain⟩ := List.forall_mem_cons.mp plain
      obtain ⟨grown, hadd, hgrown⟩ := add_get? env first
      obtain ⟨env', haddAll, hget⟩ := ih grown plain
      refine ⟨env', ?_, fun name => ?_⟩
      · rw [addAll, hadd]
        exact haddAll
      · have further : (if name = e.1 then some e.2 else none).or (es.lookup name) =
            (e :: es).lookup name := by
          rw [lookup_cons]
          split <;> rfl
        rw [hget, hgrown, Option.or_assoc, further]

/-! ## The entries of the lines -/

theorem firstSets_cons {line name value : List Char} {ls : List (List Char)} :
    FirstSets (line :: ls) name value ↔
      Sets line name value ∨ (∀ v, ¬ Sets line name v) ∧ FirstSets ls name value := by
  constructor
  · rintro ⟨earlier, first, later, split, sets, none⟩
    cases earlier with
    | nil =>
        obtain ⟨rfl, -⟩ := List.cons.inj split
        exact .inl sets
    | cons l earlier =>
        obtain ⟨rfl, rfl⟩ := List.cons.inj split
        obtain ⟨noneHere, none⟩ := List.forall_mem_cons.mp none
        exact .inr ⟨noneHere, earlier, first, later, rfl, sets, none⟩
  · rintro (sets | ⟨noneHere, earlier, first, later, rfl, sets, none⟩)
    · exact ⟨[], line, ls, rfl, sets, nofun⟩
    · exact ⟨line :: earlier, first, later, rfl, sets, List.forall_mem_cons.mpr ⟨noneHere, none⟩⟩

theorem not_sets {line name : String} (h : ∀ value, entry? line ≠ some (name, value))
    (v : List Char) : ¬ Sets line.toList name.toList v := by
  intro sets
  refine h (String.ofList v) (entry?_eq_some_iff.mpr ?_)
  rwa [String.toList_ofList]

/-- The first entry of a name comes from the first line that sets it. -/
theorem lookup_entries {ls : List String} {name value : String} :
    (ls.filterMap entry?).lookup name = some value ↔
      FirstSets (ls.map String.toList) name.toList value.toList := by
  induction ls with
  | nil =>
      constructor
      · rintro ⟨⟩
      · rintro ⟨earlier, line, later, split, -⟩
        cases earlier <;> cases split
  | cons line ls ih =>
      rw [List.map_cons, firstSets_cons, ← entry?_eq_some_iff, ← ih]
      cases hline : entry? line with
      | none =>
          have noneHere := @not_sets line name (by simp [hline])
          rw [List.filterMap_cons_none hline]
          simp [noneHere]
      | some e =>
          rw [List.filterMap_cons_some hline, lookup_cons]
          split
          next same =>
            have sets : Sets line.toList name.toList e.2.toList :=
              entry?_eq_some_iff.mp (by rw [hline, same])
            constructor
            · intro h
              cases h
              exact .inl (by rw [same])
            · rintro (h | ⟨noneHere, -⟩)
              · cases h
                rfl
              · exact absurd sets (noneHere _)
          next other =>
            have noneHere := @not_sets line name fun value h => by
              rw [hline] at h
              cases h
              exact other rfl
            constructor
            · exact fun h => .inr ⟨noneHere, h⟩
            · rintro (h | ⟨-, h⟩)
              · cases h
                exact absurd rfl other
              · exact h

/-- There is an entry of a name when some line sets it. -/
theorem lookup_entries_isSome {ls : List String} {name : String} :
    ((ls.filterMap entry?).lookup name).isSome = true ↔
      ∃ line ∈ ls.map String.toList, ∃ value, Sets line name.toList value := by
  constructor
  · intro h
    obtain ⟨value, hvalue⟩ := Option.isSome_iff_exists.mp h
    obtain ⟨earlier, line, later, split, sets, -⟩ := lookup_entries.mp hvalue
    exact ⟨line, split ▸ List.mem_append_right _ List.mem_cons_self, _, sets⟩
  · rintro ⟨_, mem, value, sets⟩
    obtain ⟨line, hline, rfl⟩ := List.mem_map.mp mem
    have entry : entry? line = some (name, String.ofList value) :=
      entry?_eq_some_iff.mpr (by rwa [String.toList_ofList])
    refine Option.isSome_iff_ne_none.mpr fun unset => ?_
    have others := List.lookup_eq_none_iff.mp unset _ (List.mem_filterMap.mpr ⟨line, hline, entry⟩)
    simp at others

/-! ## The merge -/

/-- What the lines of a file make of an environment: a variable that was set keeps its value, the
variables that some line sets are set as well, and those have the value of the first such line. -/
structure Merges (env : Environment) (ls : List (List Char)) (env' : Environment) : Prop where
  kept : ∀ name value, env.get? name = some value → env'.get? name = some value
  fresh : ∀ name, env.get? name = none →
    ((env'.get? name).isSome = true ↔ ∃ line ∈ ls, ∃ value, Sets line name.toList value)
  first : ∀ name value, env.get? name = none →
    (env'.get? name = some value ↔ FirstSets ls name.toList value.toList)

/-- What a line of a plain text sets is plain. -/
theorem plain_of_entry? {text line : String} (plain : '\x00' ∉ text.toList)
    (hline : line ∈ lines text) {e : String × String} (h : entry? line = some e) :
    isPlain e.1 = true ∧ isPlain e.2 = true := by
  have sets : Sets line.toList e.1.toList e.2.toList := entry?_eq_some_iff.mp h
  obtain ⟨cs, hcs, rfl⟩ := List.mem_map.mp hline
  rw [String.toList_ofList] at sets
  have inText {c : Char} (hc : c ∈ e.1.toList ∨ c ∈ e.2.toList) : (c.toNat != 0) = true := by
    have mem : c ∈ text.toList := (lines_iff.mpr rfl).mem hcs (sets.mem hc)
    have nonzero : c.toNat ≠ 0 := by
      intro zero
      obtain rfl : c = '\x00' := Char.toNat_inj.mp zero
      exact plain mem
    simpa using nonzero
  exact ⟨List.all_eq_true.mpr fun c hc => inText (.inl hc),
    List.all_eq_true.mpr fun c hc => inText (.inr hc)⟩

/-- **A file adds variables and changes none.**  A text without NUL is put together from lines in
one way, and loading it succeeds: a variable that was set keeps its value, the variables that some line
sets are set as well, each to the value of the first line that sets it, and there are no others. -/
theorem load_merges (env : Environment) {text : String} (plain : '\x00' ∉ text.toList) :
    ∃ ls env', (∀ ls', Lines text.toList ls' ↔ ls' = ls) ∧ load env text = .ok env' ∧
      Merges env ls env' := by
  have plainEntries :
      ∀ e ∈ (lines text).filterMap entry?, isPlain e.1 = true ∧ isPlain e.2 = true := by
    intro e he
    obtain ⟨line, hline, hentry⟩ := List.mem_filterMap.mp he
    exact plain_of_entry? plain hline hentry
  obtain ⟨env', hload, hget⟩ := addAll_get? env plainEntries
  have same : linesFrom [] text.toList = (lines text).map String.toList := by
    simp [lines]
  refine ⟨_, env', fun ls' => lines_iff, hload, ?_⟩
  rw [same]
  constructor
  · intro name value hvalue
    rw [hget, hvalue, Option.some_or]
  · intro name unset
    rw [hget, unset, Option.none_or]
    exact lookup_entries_isSome
  · intro name value unset
    rw [hget, unset, Option.none_or]
    exact lookup_entries

/-- A file with a comment, a name in two lines, a variable that is set, and a line that begins with
the separator. -/
def portFile : String :=
  "# PORT=1\n PORT = \"80\"\r\nPORT=81\u2028HOST=b\n=c"

theorem portFile_merges :
    '\x00' ∉ portFile.toList ∧ ∃ env', load [("HOST", "a")] portFile = .ok env' ∧
      env'.get? "HOST" = some "a" ∧ env'.get? "PORT" = some "80" := by
  have plain : '\x00' ∉ portFile.toList := by decide
  obtain ⟨ls, env', hls, hload, merges⟩ := load_merges [("HOST", "a")] plain
  have split : (lines portFile).map String.toList = ls :=
    (hls _).mp (lines_iff.mpr (by decide +kernel))
  refine ⟨plain, env', hload, merges.kept "HOST" "a" rfl, ?_⟩
  refine (merges.first "PORT" "80" rfl).mpr ?_
  rw [← split]
  exact lookup_entries.mp (by decide +kernel)

end Toolbar.Settings.EnvFile
