/-
# `Toolbar.Proofs.Template.Scan` — the tokens of a text and the literals between them

A text is cut into literals and tokens from the left: a token stands at the first place where one can
start, with the longest suffix that the grammar has there, and the text behind it is cut in the same
way.  The grammar says what a token is, without a word about how one is found:

    IsSuffix       nothing, `.name` or `.name(args)`
    Grammatical    a path between braces, and a suffix
    Scans          a literal in which no token can start, then a token that is as long as it can
                   be, and so on

`extract_scans` says that a text has exactly one such decomposition, and that its tokens are the
ones that are extracted.
-/
import Toolbar.Proofs.Template.Token

namespace Toolbar

namespace Token

/-! ## The grammar -/

/-- The name of a method. -/
inductive IsName : List Char → Prop
  | mk {c : Char} {cs : List Char} : isNameStart c = true → (∀ a ∈ cs, isNamePart a = true) →
      IsName (c :: cs)

/-- A suffix with its method and arguments. -/
inductive IsSuffix : Option (List Char) → Option (List Char) → List Char → Prop
  | none : IsSuffix none none []
  | name {m : List Char} : IsName m → IsSuffix (some m) none ('.' :: m)
  | call {m as : List Char} : IsName m → '(' ∉ as → ')' ∉ as →
      IsSuffix (some m) (some as) ('.' :: m ++ ('(' :: as ++ [')']))

/-- A token of the grammar. -/
structure Grammatical (t : Token) : Prop where
  full : t.full = '\x7b' :: t.path ++ '\x7d' :: t.suffix
  path : t.path ≠ [] ∧ '\x7d' ∉ t.path
  suffix : IsSuffix t.method t.args t.suffix

/-- A token can start here. -/
def Starts (cs : List Char) : Prop :=
  ∃ t, Grammatical t ∧ t.full <+: cs

/-- A token of the grammar whose suffix is the longest that can stand before `rest`. -/
structure Longest (t : Token) (rest : List Char) : Prop where
  grammatical : Grammatical t
  suffix : ∀ m as s, IsSuffix m as s → s <+: t.suffix ++ rest → s.length ≤ t.suffix.length

/-- In a literal before `rest` no token can start. -/
def Barren (literal rest : List Char) : Prop :=
  ∀ k < literal.length, ¬ Starts ((literal ++ rest).drop k)

/-- A literal, and tokens with the literals behind them. -/
def weave (first : List Char) (pieces : List (Token × List Char)) : List Char :=
  first ++ pieces.flatMap fun (t, literal) => t.full ++ literal

theorem weave_cons (first next : List Char) (t : Token) (pieces : List (Token × List Char)) :
    weave first ((t, next) :: pieces) = first ++ (t.full ++ weave next pieces) := by
  simp [weave]

/-- A text cut from the left, given by its first literal and its tokens with the literals behind
them. -/
inductive Scans : List Char → List (Token × List Char) → Prop
  | last {first : List Char} : Barren first [] → Scans first []
  | token {first next : List Char} {t : Token} {pieces : List (Token × List Char)} :
      Barren first (t.full ++ weave next pieces) → Longest t (weave next pieces) →
      Scans next pieces → Scans first ((t, next) :: pieces)

/-! ## Names and suffixes -/

theorem isNamePart_of_isName {m : List Char} (h : IsName m) : ∀ a ∈ m, isNamePart a = true := by
  cases h with
  | mk hstart hparts =>
      intro a ha
      rcases List.mem_cons.mp ha with rfl | ha
      · simp [isNamePart, hstart]
      · exact hparts a ha

theorem isName_takeWhile {c : Char} {cs : List Char} (h : isNameStart c = true) :
    IsName (c :: cs.takeWhile isNamePart) :=
  .mk h fun _ ha => mem_takeWhile ha

/-- A name that a text begins with goes at most as far as the characters of names. -/
theorem name_le_takeWhile {m : List Char} {c : Char} {cs : List Char} (h : IsName m)
    (hbegins : m <+: c :: cs) : m.length ≤ (c :: cs.takeWhile isNamePart).length := by
  cases h with
  | mk _ hparts =>
      obtain ⟨rest, hrest⟩ := hbegins
      rw [List.cons_append] at hrest
      obtain ⟨rfl, rfl⟩ := List.cons.inj hrest
      rw [List.takeWhile_append_of_pos hparts]
      simp

/-- Arguments are read up to the first closing parenthesis, when none opens before it. -/
theorem argsAt?_eq_some {cs as rest : List Char} :
    argsAt? cs = some (as, rest) ↔ ('(' ∉ as ∧ ')' ∉ as) ∧ cs = '(' :: as ++ ')' :: rest := by
  constructor
  · intro h
    refine ⟨?_, by rw [eq_of_argsAt? h]; simp [argsText]⟩
    unfold argsAt? at h
    split at h
    next cs =>
      dsimp only at h
      split at h
      next =>
        cases h
        refine ⟨fun hmem => ?_, fun hmem => ?_⟩
        · exact absurd (mem_takeWhile hmem) (by decide)
        · exact absurd (mem_takeWhile hmem) (by decide)
      next => cases h
    next => cases h
  · rintro ⟨⟨hopen, hclose⟩, rfl⟩
    have inner : ∀ a ∈ as, (a != '(' && a != ')') = true := by
      intro a ha
      have hopen' : a ≠ '(' := fun h => hopen (h ▸ ha)
      have hclose' : a ≠ ')' := fun h => hclose (h ▸ ha)
      simp [hopen', hclose']
    simp only [argsAt?, List.cons_append]
    rw [takeWhile_append_cons inner (by decide), dropWhile_append_cons inner (by decide)]
    rfl

/-- A name before a parenthesis is all characters of names that there are. -/
theorem name_before_args {m : List Char} {c : Char} {cs after : List Char} (h : IsName m)
    (heq : c :: cs = m ++ '(' :: after) :
    m = c :: cs.takeWhile isNamePart ∧ cs.dropWhile isNamePart = '(' :: after := by
  cases h with
  | mk _ hparts =>
      rw [List.cons_append] at heq
      obtain ⟨rfl, rfl⟩ := List.cons.inj heq
      rw [takeWhile_append_cons hparts (by decide), dropWhile_append_cons hparts (by decide)]
      exact ⟨rfl, rfl⟩

/-- Method and arguments can be told from a suffix. -/
theorem IsSuffix.unique {m m' as as' : Option (List Char)} {s : List Char}
    (h : IsSuffix m as s) (h' : IsSuffix m' as' s) : m = m' ∧ as = as' := by
  -- A parenthesis is no part of a name, so a name alone is no call.
  have no_paren : ∀ {m : List Char}, IsName m → '(' ∉ m :=
    fun hm hmem => absurd (isNamePart_of_isName hm _ hmem) (by decide)
  have differ : ∀ {m m' as : List Char}, IsName m → m ≠ m' ++ ('(' :: as ++ [')']) := by
    intro m m' as hm heq
    exact no_paren hm (heq ▸ by simp)
  generalize hs : s = s' at h'
  cases h with
  | none =>
      cases h' with
      | none => exact ⟨rfl, rfl⟩
      | name _ => cases hs
      | call _ _ _ => cases hs
  | @name m hm =>
      cases h' with
      | none => cases hs
      | name _ => exact ⟨congrArg some (List.cons.inj hs).2, rfl⟩
      | call _ _ _ => exact absurd (List.cons.inj hs).2 (differ hm)
  | @call m as hm _ hclose =>
      cases h' with
      | none => cases hs
      | name hm' => exact absurd (List.cons.inj hs).2.symm (differ hm')
      | @call m' as' hm' _ hclose' =>
          have htail : m ++ '(' :: (as ++ [')']) = m' ++ '(' :: (as' ++ [')']) :=
            (List.cons.inj hs).2
          have part : ∀ {m : List Char}, IsName m → ∀ a ∈ m, (a != '(') = true :=
            fun hm a ha => bne_iff_ne.mpr fun h => no_paren hm (h ▸ ha)
          obtain rfl := cut_unique htail (part hm) (by decide) (part hm') (by decide)
          have hargs := (List.cons.inj (List.append_cancel_left htail)).2
          exact ⟨rfl, congrArg some (List.append_cancel_right hargs)⟩

/-! ## Reading a suffix -/

/-- What is read as a suffix is one. -/
theorem isSuffix_of_suffixAt? {cs m rest : List Char} {as : Option (List Char)}
    (h : suffixAt? cs = some (m, as, rest)) : IsSuffix (some m) as ('.' :: m ++ argsText as) := by
  unfold suffixAt? at h
  split at h
  next c cs =>
    split at h
    next hstart =>
      dsimp only at h
      split at h
      next args rest' hargs =>
        cases h
        obtain ⟨⟨hopen, hclose⟩, -⟩ := argsAt?_eq_some.mp hargs
        exact .call (isName_takeWhile hstart) hopen hclose
      next =>
        cases h
        rw [argsText, List.append_nil]
        exact .name (isName_takeWhile hstart)
    next => cases h
  next => cases h

/-- Every suffix that a text begins with is read, or a longer one. -/
theorem suffixAt?_longest {cs s : List Char} {m as : Option (List Char)} (h : IsSuffix m as s)
    (hbegins : s <+: cs) : s = [] ∨ ∃ m' as' rest, suffixAt? cs = some (m', as', rest) ∧
      s.length ≤ ('.' :: m' ++ argsText as').length := by
  cases h with
  | none => exact .inl rfl
  | @name m hm =>
      right
      obtain ⟨after, rfl⟩ := hbegins
      have hname := hm
      cases hm with
      | @mk c m hstart _ =>
          have hle := name_le_takeWhile hname ⟨after, List.cons_append⟩
          simp only [List.cons_append, suffixAt?, if_pos hstart]
          split
          next => exact ⟨_, _, _, rfl, by simp at hle ⊢; omega⟩
          next => exact ⟨_, _, _, rfl, by simp at hle ⊢; omega⟩
  | @call m as hm hopen hclose =>
      right
      obtain ⟨after, rfl⟩ := hbegins
      have hname := hm
      cases hm with
      | @mk c m hstart _ =>
          have heq : c :: (m ++ ('(' :: as ++ ')' :: after)) =
              c :: m ++ '(' :: (as ++ ')' :: after) := by simp
          obtain ⟨htake, hdrop⟩ := name_before_args hname heq
          have hargs : argsAt? ('(' :: (as ++ ')' :: after)) = some (as, after) :=
            argsAt?_eq_some.mpr ⟨⟨hopen, hclose⟩, rfl⟩
          have htext : '.' :: (c :: m) ++ ('(' :: as ++ [')']) ++ after =
              '.' :: c :: (m ++ ('(' :: as ++ ')' :: after)) := by simp
          refine ⟨c :: m, some as, after, ?_, Nat.le_refl _⟩
          simp only [htext, suffixAt?, if_pos hstart, ← htake, hdrop, hargs]

/-! ## Reading a token -/

theorem starts_iff {cs : List Char} :
    Starts cs ↔ ∃ path rest, path ≠ [] ∧ '\x7d' ∉ path ∧ cs = '\x7b' :: path ++ '\x7d' :: rest := by
  constructor
  · rintro ⟨t, ht, rest, rfl⟩
    refine ⟨t.path, t.suffix ++ rest, ht.path.1, ht.path.2, ?_⟩
    simp only [ht.full, List.cons_append, List.append_assoc]
  · rintro ⟨path, rest, hne, hclosing, rfl⟩
    refine ⟨⟨path, none, none⟩, ⟨rfl, ⟨hne, hclosing⟩, .none⟩, rest, ?_⟩
    simp [full, suffix]

/-- No token is read where none can start. -/
theorem at?_eq_none {cs : List Char} : at? cs = none ↔ ¬ Starts cs := by
  have hpath : at? cs = none ↔ pathAt? cs = none := by
    unfold at?
    split
    next hpath => simp [hpath]
    next hpath =>
      rw [hpath]
      split <;> simp
  rw [hpath, starts_iff, Option.eq_none_iff_forall_not_mem]
  constructor
  · rintro h ⟨path, rest, hne, hclosing, heq⟩
    exact h (path, rest) (pathAt?_eq_some.mpr ⟨hne, hclosing, heq⟩)
  · rintro h ⟨path, rest⟩ hmem
    exact h ⟨path, rest, pathAt?_eq_some.mp hmem⟩

instance (cs : List Char) : Decidable (Starts cs) :=
  match h : at? cs with
  | none => .isFalse (at?_eq_none.mp h)
  | some _ => .isTrue (Classical.not_not.mp fun hno => nomatch h.symm.trans (at?_eq_none.mpr hno))

instance (literal rest : List Char) : Decidable (Barren literal rest) :=
  inferInstanceAs (Decidable (∀ k < literal.length, ¬ Starts ((literal ++ rest).drop k)))

/-- The token that is read is the longest. -/
theorem longest_of_at? {cs rest : List Char} {t : Token} (h : at? cs = some (t, rest)) :
    Longest t rest := by
  unfold at? at h
  split at h
  next => cases h
  next path after hpath =>
    obtain ⟨hne, hclosing, -⟩ := pathAt?_eq_some.mp hpath
    split at h
    next m as rest' hsuffix =>
      cases h
      refine ⟨⟨rfl, ⟨hne, hclosing⟩, isSuffix_of_suffixAt? hsuffix⟩, fun m' as' s hs hbegins => ?_⟩
      have hafter : '.' :: m ++ argsText as ++ rest = after := (eq_of_suffixAt? hsuffix).1.symm
      simp only [suffix, hafter] at hbegins ⊢
      obtain rfl | ⟨m'', as'', rest'', hread, hle⟩ := suffixAt?_longest hs hbegins
      · exact Nat.zero_le _
      · cases hsuffix.symm.trans hread
        exact hle
    next hsuffix =>
      cases h
      refine ⟨⟨rfl, ⟨hne, hclosing⟩, .none⟩, fun m' as' s hs hbegins => ?_⟩
      obtain rfl | ⟨m'', as'', rest'', hread, -⟩ := suffixAt?_longest hs hbegins
      · exact Nat.le_refl _
      · cases hsuffix.symm.trans hread

/-- Where two tokens stand at one place, their paths are the same, and so is what follows. -/
theorem path_of_text {t t' : Token} {rest rest' : List Char} (h : Grammatical t)
    (h' : Grammatical t') (heq : t.full ++ rest = t'.full ++ rest') :
    t.path = t'.path ∧ t.suffix ++ rest = t'.suffix ++ rest' := by
  have htail : t.path ++ '\x7d' :: (t.suffix ++ rest) =
      t'.path ++ '\x7d' :: (t'.suffix ++ rest') := by simpa [full] using heq
  have part : ∀ {t : Token}, Grammatical t → ∀ a ∈ t.path, (a != '\x7d') = true :=
    fun ht a ha => bne_iff_ne.mpr fun h => ht.path.2 (h ▸ ha)
  have hpath := cut_unique htail (part h) (by decide) (part h') (by decide)
  rw [hpath] at htail
  exact ⟨hpath, (List.cons.inj (List.append_cancel_left htail)).2⟩

/-- A token of the grammar is determined by its path and suffix. -/
theorem eq_of_suffix {t t' : Token} (h : Grammatical t) (h' : Grammatical t')
    (hpath : t.path = t'.path) (hsuffix : t.suffix = t'.suffix) : t = t' := by
  obtain ⟨hmethod, hargs⟩ := h.suffix.unique (hsuffix ▸ h'.suffix)
  cases t
  cases t'
  simp only at hpath hmethod hargs
  rw [hpath, hmethod, hargs]

/-- It is determined by its text. -/
theorem full_injective {t t' : Token} (h : Grammatical t) (h' : Grammatical t')
    (heq : t.full = t'.full) : t = t' := by
  have htexts : t.full ++ [] = t'.full ++ [] := congrArg (· ++ []) heq
  obtain ⟨hpath, hsuffix⟩ := path_of_text h h' htexts
  rw [List.append_nil, List.append_nil] at hsuffix
  exact eq_of_suffix h h' hpath hsuffix

/-- The longest token is the one that is read. -/
theorem at?_eq_some_iff {cs rest : List Char} {t : Token} :
    at? cs = some (t, rest) ↔ cs = t.full ++ rest ∧ Longest t rest := by
  constructor
  · intro h
    exact ⟨eq_of_at? h, longest_of_at? h⟩
  · rintro ⟨rfl, h⟩
    cases hread : at? (t.full ++ rest) with
    | none => exact absurd ⟨t, h.grammatical, List.prefix_append _ _⟩ (at?_eq_none.mp hread)
    | some found =>
        obtain ⟨t', rest'⟩ := found
        have h' := longest_of_at? hread
        obtain ⟨hpath, htail⟩ := path_of_text h.grammatical h'.grammatical (eq_of_at? hread)
        -- Each of the two suffixes is the longest before what the other one stands before.
        have hle := h.suffix _ _ _ h'.grammatical.suffix (htail ▸ List.prefix_append _ _)
        have hge := h'.suffix _ _ _ h.grammatical.suffix (htail ▸ List.prefix_append _ _)
        obtain ⟨hsuffix, rfl⟩ := List.append_inj htail (Nat.le_antisymm hge hle)
        rw [eq_of_suffix h.grammatical h'.grammatical hpath hsuffix]

instance (t : Token) (rest : List Char) : Decidable (Longest t rest) :=
  decidable_of_iff (at? (t.full ++ rest) = some (t, rest))
    ⟨longest_of_at?, fun h => at?_eq_some_iff.mpr ⟨rfl, h⟩⟩

instance decidableScans : ∀ first pieces, Decidable (Scans first pieces)
  | first, [] =>
      decidable_of_iff (Barren first []) ⟨.last, fun h => by
        cases h with
        | last barren => exact barren⟩
  | first, (t, next) :: pieces =>
      have := decidableScans next pieces
      decidable_of_iff (Barren first (t.full ++ weave next pieces) ∧
          Longest t (weave next pieces) ∧ Scans next pieces)
        ⟨fun ⟨barren, longest, scans⟩ => .token barren longest scans, fun h => by
          cases h with
          | token barren longest scans => exact ⟨barren, longest, scans⟩⟩

/-! ## Extracting tokens -/

theorem scan_eq_extract_drop (k : Nat) (cs : List Char) : scan k cs = extract (cs.drop k) := by
  induction cs generalizing k with
  | nil => cases k <;> rfl
  | cons c cs ih =>
      cases k with
      | zero => rfl
      | succ k => exact ih k

/-- Where no token can start, the text behind the character is scanned. -/
theorem extract_of_not_starts {c : Char} {cs : List Char} (h : ¬ Starts (c :: cs)) :
    extract (c :: cs) = extract cs := by
  show scan 0 (c :: cs) = scan 0 cs
  rw [scan, at?_eq_none.mpr h]

/-- Behind a token the rest is scanned. -/
theorem extract_of_longest {t : Token} {rest : List Char} (h : Longest t rest) :
    extract (t.full ++ rest) = t :: extract rest := by
  have hread := at?_eq_some_iff.mpr ⟨rfl, h⟩
  obtain ⟨tail, htail⟩ : ∃ tail, t.full = '\x7b' :: tail := ⟨_, rfl⟩
  rw [htail, List.cons_append] at hread ⊢
  show scan 0 ('\x7b' :: (tail ++ rest)) = _
  rw [scan, hread]
  simp only [scan_eq_extract_drop, htail, List.length_cons, Nat.add_sub_cancel, List.drop_left]

/-! ## The decomposition -/

theorem barren_nil (rest : List Char) : Barren [] rest :=
  fun k hk => absurd hk (Nat.not_lt_zero k)

theorem Barren.cons {c : Char} {literal rest : List Char} (hc : ¬ Starts (c :: (literal ++ rest)))
    (h : Barren literal rest) : Barren (c :: literal) rest := by
  intro k hk
  cases k with
  | zero => exact hc
  | succ k => exact h k (Nat.lt_of_succ_lt_succ hk)

/-- A character where no token can start belongs to the literal. -/
theorem Scans.cons {c : Char} {first : List Char} {pieces : List (Token × List Char)}
    (h : Scans first pieces) (hc : ¬ Starts (c :: weave first pieces)) :
    Scans (c :: first) pieces := by
  cases h with
  | last hbarren => exact .last (hbarren.cons hc)
  | token hbarren hlongest hrest =>
      rw [weave_cons] at hc
      exact .token (hbarren.cons hc) hlongest hrest

/-- Every text can be cut, into the tokens that are extracted and literals. -/
theorem exists_scans (cs : List Char) : ∃ first pieces, cs = weave first pieces ∧
    Scans first pieces ∧ extract cs = pieces.map Prod.fst := by
  -- On the length of the text: behind a token its rest is cut.
  induction hn : cs.length using Nat.strongRecOn generalizing cs with
  | _ n ih =>
  cases cs with
  | nil => exact ⟨[], [], rfl, .last (barren_nil []), rfl⟩
  | cons c cs =>
      cases hread : at? (c :: cs) with
      | none =>
          have hc := at?_eq_none.mp hread
          obtain ⟨first, pieces, hcs, hscans, hextract⟩ := ih cs.length (by simp [← hn]) cs rfl
          refine ⟨c :: first, pieces, ?_, ?_, ?_⟩
          · rw [hcs]
            rfl
          · rw [hcs] at hc
            exact hscans.cons hc
          · rw [extract_of_not_starts hc, hextract]
      | some found =>
          obtain ⟨t, rest⟩ := found
          obtain ⟨htext, hlongest⟩ := at?_eq_some_iff.mp hread
          have hshorter : rest.length < n := by
            rw [← hn, htext, List.length_append, length_full]
            omega
          obtain ⟨next, pieces, rfl, hscans, hextract⟩ := ih rest.length hshorter rest rfl
          refine ⟨[], (t, next) :: pieces, ?_, .token (barren_nil _) hlongest hscans, ?_⟩
          · rw [weave_cons, htext, List.nil_append]
          · rw [htext, extract_of_longest hlongest, hextract, List.map_cons]

theorem Scans.grammatical {first : List Char} {pieces : List (Token × List Char)}
    (h : Scans first pieces) : ∀ t ∈ pieces.map Prod.fst, Grammatical t := by
  induction h with
  | last _ =>
      intro t ht
      cases ht
  | token _ longest _ ih =>
      intro t ht
      rcases List.mem_cons.mp ht with rfl | ht
      · exact longest.grammatical
      · exact ih t ht

/-- In a text that is cut, a literal goes as far as the first place where a token can start. -/
theorem Scans.first_le {first first' : List Char} {pieces pieces' : List (Token × List Char)}
    (h : Scans first pieces) (h' : Scans first' pieces')
    (heq : weave first pieces = weave first' pieces') : first'.length ≤ first.length := by
  refine Nat.le_of_not_lt fun hlt => ?_
  have barren : ¬ Starts ((weave first' pieces').drop first.length) := by
    cases h' with
    | last hbarren =>
        have hno := hbarren _ hlt
        rwa [List.append_nil, ← show weave first' [] = first' from List.append_nil _] at hno
    | token hbarren _ _ =>
        rw [weave_cons]
        exact hbarren _ hlt
  rw [← heq] at barren
  cases h with
  | last _ =>
      -- The first text ends where the other still has a character.
      have hlength := congrArg List.length heq
      simp only [weave, List.flatMap_nil, List.append_nil, List.length_append] at hlength
      omega
  | token _ hlongest _ =>
      rw [weave_cons, List.drop_left] at barren
      exact barren ⟨_, hlongest.grammatical, List.prefix_append _ _⟩

/-- A text is cut in one way. -/
theorem Scans.unique {first first' : List Char} {pieces pieces' : List (Token × List Char)}
    (h : Scans first pieces) (h' : Scans first' pieces')
    (heq : weave first pieces = weave first' pieces') : first = first' ∧ pieces = pieces' := by
  induction h generalizing first' pieces' with
  | @last first hbarren =>
      have hlength := Nat.le_antisymm (h'.first_le (.last hbarren) heq.symm)
        (Scans.first_le (.last hbarren) h' heq)
      cases h' with
      | last _ => exact ⟨by simpa [weave] using heq, rfl⟩
      | @token _ _ t _ _ _ _ =>
          have hlonger := congrArg List.length heq
          rw [weave_cons] at hlonger
          simp only [weave, List.flatMap_nil, List.append_nil, List.length_append,
            length_full] at hlonger
          omega
  | @token first next t pieces hbarren hlongest hrest ih =>
      have hscans := Scans.token hbarren hlongest hrest
      have hlength := Nat.le_antisymm (h'.first_le hscans heq.symm) (hscans.first_le h' heq)
      cases h' with
      | last _ =>
          have hlonger := congrArg List.length heq
          rw [weave_cons] at hlonger
          simp only [weave, List.flatMap_nil, List.append_nil, List.length_append,
            length_full] at hlonger
          omega
      | @token _ next' t' pieces' _ hlongest' hrest' =>
          rw [weave_cons, weave_cons] at heq
          obtain ⟨rfl, htail⟩ := List.append_inj heq hlength
          have hread := at?_eq_some_iff.mpr ⟨htail, hlongest'⟩
          rw [at?_eq_some_iff.mpr ⟨rfl, hlongest⟩] at hread
          obtain ⟨rfl, hnext⟩ := Prod.mk.inj (Option.some.inj hread)
          obtain ⟨rfl, rfl⟩ := ih hrest' hnext
          exact ⟨rfl, rfl⟩

/-- The tokens of a text that is cut are the ones that are extracted. -/
theorem Scans.extract_eq {first : List Char} {pieces : List (Token × List Char)}
    (h : Scans first pieces) : extract (weave first pieces) = pieces.map Prod.fst := by
  obtain ⟨first', pieces', heq, hscans, hextract⟩ := exists_scans (weave first pieces)
  obtain ⟨-, rfl⟩ := h.unique hscans heq
  exact hextract

/-- **The tokens of a text are the ones of its leftmost scan.**  Every text is cut in exactly one way
into literals in which no token can start, and between them tokens of the grammar with the longest
suffixes; these tokens, in order, are the ones that are extracted. -/
theorem extract_scans (cs : List Char) : ∃ first pieces, cs = weave first pieces ∧
    Scans first pieces ∧ extract cs = pieces.map Prod.fst ∧
    ∀ first' pieces', cs = weave first' pieces' → Scans first' pieces' →
      first' = first ∧ pieces' = pieces := by
  obtain ⟨first, pieces, rfl, hscans, hextract⟩ := exists_scans cs
  refine ⟨first, pieces, rfl, hscans, hextract, fun first' pieces' heq hscans' => ?_⟩
  exact hscans'.unique hscans heq.symm

end Token

end Toolbar
