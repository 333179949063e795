import CodeSurvey.Proofs.Splitting

/-!
# Searching and splitting

A list can be taken apart in two ways: split as a whole, or cut at the first separator that a search
finds. The two scans differ in what they take for the end of a literal, since to the search every
quote behind a backslash is escaped, and in what a closer too many does, since the depth of the
search falls below zero and hides as many brackets that open later. Where a text gives no occasion
for this, both ways come to the same.

- `Orderly`: texts that give no occasion.
- `typeDepth_eq_nesting`: the depth of a search is the nesting of the place.
- `findTopLevel?_eq_ahead`: the search stands where the splitting scan does.
- `splitTopLevel_eq_search`: a text is split at what a search finds, and the rest again.
- `search_misses_separator`: texts that are not orderly.
-/

namespace CodeSurvey.Source

open Text Reading

/-- Whether the text up to a limit is read alike by a search for a character and by a scan that
splits at it: no literal ends right behind a backslash, and where no more brackets have opened than
closed the character stands in none. -/
structure Orderly (text : List Char) (target : Char) (limit : Nat) : Prop where
  literals : ∀ place < limit, ¬ CodeAt text 0 place → CodeAt text 0 (place + 1) →
    (text.take place).getLast? ≠ some '\\'
  brackets : ∀ place ≤ limit, text[place]? = some target → CodeAt text 0 place →
    nesting text place ≤ 0 → ¬ Enclosed text place

instance (text : List Char) (target : Char) (limit : Nat) :
    Decidable (Orderly text target limit) :=
  decidable_of_iff
    ((∀ place < limit, ¬ CodeAt text 0 place → CodeAt text 0 (place + 1) →
        (text.take place).getLast? ≠ some '\\') ∧
      ∀ place ≤ limit, text[place]? = some target → CodeAt text 0 place →
        nesting text place ≤ 0 → ¬ Enclosed text place)
    ⟨fun h => ⟨h.1, h.2⟩, fun h => ⟨h.literals, h.brackets⟩⟩

/-- The quote of the literal in which a scan stands. -/
def Literal.quote? : Literal → Option Char
  | code => none
  | inside quote => some quote
  | escaped quote => some quote

section

variable {text : List Char} {target c : Char} {place limit : Nat} {here : Reading}
  {separators : List Char}

/-! ## One character -/

/-- A scan stands right behind the backslash of an escape, and literals open with quotes. -/
theorem quote_of_reach (h : reach separators start text = some here) :
    (∀ quote, here.lit = .escaped quote → here.previous = some '\\') ∧
      ∀ quote, here.lit.quote? = some quote → isQuote quote := by
  induction text using List.reverseRecOn generalizing here with
  | nil =>
    obtain rfl : start = here := Option.some.inj h
    exact ⟨fun _ hlit => by contradiction, fun _ hquote => by contradiction⟩
  | append_singleton text c ih =>
    rw [reach_append, Option.bind_eq_some_iff] at h
    obtain ⟨before, hbefore, hstep⟩ := h
    obtain ⟨-, -, hnext⟩ := reach_cons_eq_some_iff.mp hstep
    obtain rfl : before.next c = here := Option.some.inj hnext
    obtain ⟨-, hquote⟩ := ih hbefore
    show (∀ quote, before.lit.step c = .escaped quote → some c = some '\\') ∧
      ∀ quote, (before.lit.step c).quote? = some quote → isQuote quote
    cases hlit : before.lit <;> rw [hlit] at hquote <;> grind [Literal.step, Literal.quote?]

/-- What is no bracket leaves the depth of a search as it is. -/
theorem typeDepth_plain {previous : Option Char} {depth : Int} (h : isTypeBracket c = false) :
    typeDepth previous depth c = depth := by
  simp only [isTypeBracket, Bool.or_eq_false_iff] at h
  simp [typeDepth, h]

/-- Outside literals the depth of a search is how much more is nested. -/
theorem typeDepth_eq_nesting (hplace : place < text.length) (hcode : CodeAt text 0 place) :
    typeDepth (text.take place).getLast? (nesting text place) text[place] =
      nesting text (place + 1) := by
  have hget := standsAt_of_getElem? (List.getElem?_eq_getElem hplace)
  rw [nesting_succ hcode, closesAt, hget, hget, hget, typeDepth]
  by_cases hopener : isTypeOpener text[place] = true
  · obtain ⟨hcloser, hangle⟩ := Bool.or_eq_false_iff.mp (isTypeCloser_of_isTypeOpener hopener)
    simp [hopener, hcloser, hangle]
  · by_cases hcloser : isCloser text[place] = true
    · simp [hopener, hcloser]
    · simp only [hopener, hcloser, Bool.false_or, Bool.false_eq_true, if_false, Int.add_zero]
      split <;> omega

variable {previous : Option Char} {depth : Int} {quote : Char}

/-- Outside literals a search that does not stop goes on with the depth behind the character, in a
literal if that is a quote. -/
theorem topLevelAhead?_code {rest : List Char}
    (hgoes : ¬ (c = target ∧ depth ≤ 0 ∧ (c = '=' → assigns previous rest.head?))) :
    topLevelAhead? target none depth previous (c :: rest) =
      (topLevelAhead? target (Literal.code.step c).quote? (typeDepth previous depth c) (some c)
        rest).map (· + 1) := by
  rw [topLevelAhead?, Literal.step, ← isTypeBracket]
  by_cases hquote : isQuote c = true
  · rw [if_pos hquote, if_pos hquote, typeDepth_plain (isTypeBracket_of_isQuote hquote)]
    rfl
  · rw [if_neg hquote, if_neg hquote]
    by_cases hbracket : isTypeBracket c = true
    · rw [if_pos hbracket]
      rfl
    · have hstop : (c == target && decide (depth ≤ 0) &&
          (c != '=' || assigns previous rest.head?)) = false := by
        rw [Bool.eq_false_iff]
        intro hstops
        simp only [Bool.and_eq_true, beq_iff_eq, decide_eq_true_eq, Bool.or_eq_true,
          bne_iff_ne] at hstops
        obtain ⟨⟨htarget, hdepth⟩, hassigns⟩ := hstops
        exact hgoes ⟨htarget, hdepth, fun hequals => hassigns.resolve_left (not_not_intro hequals)⟩
      rw [if_neg hbracket, hstop, typeDepth_plain (Bool.eq_false_iff.mpr hbracket)]
      rfl

/-- In a literal that does not end behind a backslash a search stands where the splitting scan
does. -/
theorem topLevelAhead?_inside (hquote : isQuote quote)
    (hlast : c = quote → previous ≠ some '\\') (rest : List Char) :
    topLevelAhead? target (some quote) depth previous (c :: rest) =
      (topLevelAhead? target ((Literal.inside quote).step c).quote? depth (some c) rest).map
        (· + 1) := by
  have hescape := ne_escape_of_isQuote hquote
  rw [topLevelAhead?]
  by_cases hclose : c = quote
  · simp [Literal.step, Literal.quote?, hclose, hescape, hlast hclose]
  · by_cases hmark : c = '\\' <;>
      simp [Literal.step, Literal.quote?, hclose, hmark, Ne.symm hescape]

/-- An escaped character does not end a literal. -/
theorem topLevelAhead?_escaped (rest : List Char) :
    topLevelAhead? target (some quote) depth (some '\\') (c :: rest) =
      (topLevelAhead? target ((Literal.escaped quote).step c).quote? depth (some c) rest).map
        (· + 1) := by
  simp [topLevelAhead?, Literal.step, Literal.quote?]

/-- Along a character at which it does not stop, a search goes on as the splitting scan does. -/
theorem topLevelAhead?_next (hplace : place < text.length)
    (h : reach separators start (text.take place) = some here)
    (hliteral : ¬ CodeAt text 0 place → CodeAt text 0 (place + 1) →
      (text.take place).getLast? ≠ some '\\')
    (hgoes : ¬ (here.lit = .code ∧ text[place] = target ∧ nesting text place ≤ 0))
    (rest : List Char) :
    topLevelAhead? target here.lit.quote? (nesting text place) here.previous
        (text[place] :: rest) =
      (topLevelAhead? target (here.next text[place]).lit.quote? (nesting text (place + 1))
        (here.next text[place]).previous rest).map (· + 1) := by
  obtain ⟨hcode, hprevious⟩ := reach_start h
  obtain ⟨hescaped, hquoted⟩ := quote_of_reach h
  rw [← codeAt_zero_iff] at hcode
  show _ = (topLevelAhead? target (here.lit.step text[place]).quote? _ (some text[place])
    rest).map _
  cases hlit : here.lit with
  | code =>
    rw [← typeDepth_eq_nesting hplace (hcode.mp hlit), ← hprevious]
    exact topLevelAhead?_code fun h => hgoes ⟨hlit, h.1, h.2.1⟩
  | inside quote =>
    have hinside : ¬ CodeAt text 0 place := mt hcode.mpr (by simp [hlit])
    have hquote : isQuote quote := hquoted quote (by rw [hlit, Literal.quote?])
    rw [nesting_succ_of_literal hinside]
    apply topLevelAhead?_inside hquote
    intro hclose
    -- The quote ends the literal, so the next place is in code.
    have hbehind : CodeAt text 0 (place + 1) := by
      have hstands : (text.take place).foldl Literal.step .code = .inside quote :=
        (lit_of_reach _ h).symm.trans hlit
      rw [codeAt_zero_iff, codeText_iff, List.take_succ_eq_append_getElem hplace,
        List.foldl_append, hstands, hclose]
      simp [Literal.step, ne_escape_of_isQuote hquote]
    rw [hprevious]
    exact hliteral hinside hbehind
  | escaped quote =>
    have hinside : ¬ CodeAt text 0 place := mt hcode.mpr (by simp [hlit])
    rw [nesting_succ_of_literal hinside, hescaped quote hlit]
    exact topLevelAhead?_escaped rest

/-- A search for a separator stops at once where it stands outside literals, no more brackets have
opened than closed and the separator comes next. -/
theorem topLevelAhead?_eq_zero_iff (hseparator : isSeparator target) {quote? : Option Char} :
    topLevelAhead? target quote? depth previous text = some 0 ↔
      quote? = none ∧ depth ≤ 0 ∧ text.head? = some target := by
  obtain ⟨⟨-, -, hassigns⟩, hquote, hbracket⟩ := isSeparator_plain hseparator
  rw [isTypeBracket] at hbracket
  cases text with
  | nil => simp [topLevelAhead?]
  | cons c rest =>
    cases quote? with
    | some quote => simp [topLevelAhead?]
    | none =>
      rw [topLevelAhead?, List.head?_cons, Option.some_inj]
      by_cases htarget : c = target
      · subst htarget
        simp [hquote, hbracket, hassigns]
      · have hother : (c == target && decide (depth ≤ 0) &&
            (c != '=' || assigns previous rest.head?)) = false := by simp [htarget]
        rw [hother]
        split <;> [skip; split] <;> simp [htarget]

/-! ## A whole search -/

/-- **Searching.** Up to the place that it finds, a search in a text without comments stands where
the splitting scan does, which reads all of this as one piece. The induction is on the place: in an
orderly text brackets are open for neither of the two or for both. -/
theorem findTopLevel?_eq_ahead (hseparator : isSeparator target) (huncommented : Uncommented text)
    (horderly : Orderly text target ((findTopLevel? text target).getD text.length))
    (hplace : place ≤ (findTopLevel? text target).getD text.length) :
    place ≤ text.length ∧ ∃ here, reach [target] start (text.take place) = some here ∧
      findTopLevel? text target =
        (topLevelAhead? target here.lit.quote? (nesting text place) here.previous
          (text.drop place)).map (· + place) := by
  induction place with
  | zero =>
    refine ⟨Nat.zero_le _, start, rfl, ?_⟩
    rw [nesting_zero]
    exact Option.map_id'.symm
  | succ place ih =>
    obtain ⟨hlength, here, hreach, hfind⟩ := ih (Nat.le_of_lt hplace)
    -- At the end of the text there is nothing left to find, and the limit would be there.
    have hplace' : place < text.length := by
      apply Nat.lt_of_le_of_ne hlength
      rintro rfl
      rw [List.drop_length, topLevelAhead?, Option.map_none] at hfind
      rw [hfind] at hplace
      exact Nat.not_succ_le_self _ hplace
    have htext := List.take_append_drop place text
    rw [List.drop_eq_getElem_cons hplace'] at hfind htext
    -- Where the search stops it is at its limit.
    have hgoes : ¬ (here.lit = .code ∧ text[place] = target ∧ nesting text place ≤ 0) := by
      rintro ⟨hcode, htarget, hdepth⟩
      have hstops : topLevelAhead? target here.lit.quote? (nesting text place) here.previous
          (text[place] :: text.drop (place + 1)) = some 0 := by
        refine (topLevelAhead?_eq_zero_iff hseparator).mpr ⟨?_, hdepth, ?_⟩
        · rw [hcode]
          rfl
        · rw [htarget, List.head?_cons]
      rw [hstops, Option.map_some, Nat.zero_add] at hfind
      rw [hfind] at hplace
      exact Nat.not_succ_le_self _ hplace
    have hsplit : ¬ here.Splits [target] text[place] := by
      rintro ⟨hcode, hdepth, htarget⟩
      have hopen := (depth_eq_zero_iff hlength hreach).mp hdepth
      refine hgoes ⟨hcode, List.mem_singleton.mp htarget, ?_⟩
      by_contra hnested
      exact hopen ⟨0, Nat.zero_le _, by rw [nesting_zero]; omega⟩
    have hcomment : ¬ here.StartsComment text[place] := by
      rw [← htext] at huncommented
      exact huncommented.not_startsComment hreach
    refine ⟨hplace', here.next text[place], ?_, ?_⟩
    · rw [List.take_succ_eq_append_getElem hplace', reach_append, hreach]
      exact reach_cons_eq_some_iff.mpr ⟨hcomment, hsplit, rfl⟩
    · rw [hfind, topLevelAhead?_next hplace' hreach (horderly.literals place hplace) hgoes,
        Option.map_map]
      congr 1
      funext ahead
      exact Nat.succ_add_eq_add_succ ahead place

end

/-- **Splitting by search.** In a text without comments that is orderly up to the place where it
ends, a search finds the first place at which the text is split, or none if it is not split: what
stands before is the first chunk, unless it is blank, and what stands behind is split on its own. -/
theorem splitTopLevel_eq_search (text : List Char) (c : Char) (hc : c = ',' ∨ c = ':' ∨ c = ';')
    (huncommented : Uncommented text)
    (horderly : Orderly text c ((findTopLevel? text c).getD text.length)) :
    splitTopLevel text [c] =
      match findTopLevel? text c with
      | some place => [trim (text.take place)].filter (!·.isEmpty) ++
          splitTopLevel (text.drop (place + 1)) [c]
      | none => [trim text].filter (!·.isEmpty) := by
  have hseparator : isSeparator c := by
    rcases hc with rfl | rfl | rfl <;> rfl
  have hseparators : ∀ d ∈ [c], isSeparator d := List.forall_mem_singleton.mpr hseparator
  obtain ⟨hlength, here, hreach, hfind⟩ :=
    findTopLevel?_eq_ahead hseparator huncommented horderly (Nat.le_refl _)
  cases hfound : findTopLevel? text c with
  | none =>
    rw [hfound, Option.getD_none, List.take_length] at hreach
    rw [splitTopLevel, pieces_of_reach hseparators hreach, List.map_singleton]
  | some place =>
    rw [hfound, Option.getD_some] at hlength hreach hfind horderly
    obtain ⟨ahead, hahead, hzero⟩ := Option.map_eq_some_iff.mp hfind.symm
    obtain rfl : ahead = 0 := by omega
    obtain ⟨hquote, hdepth, hhead⟩ := (topLevelAhead?_eq_zero_iff hseparator).mp hahead
    -- Here the search stops, so it stands outside literals and, in an orderly text, outside brackets.
    have hcode : here.lit = .code := by
      cases hlit : here.lit <;> rw [hlit] at hquote <;> first | rfl | contradiction
    have hget : text[place]? = some c := by
      rw [← List.head?_drop, hhead]
    have hopen := horderly.brackets place (Nat.le_refl _) hget
      (codeAt_zero_iff.mpr ((reach_start hreach).1.mp hcode)) hdepth
    have hhere : here = ⟨.code, 0, here.previous⟩ := by
      rw [← hcode, ← (depth_eq_zero_iff hlength hreach).mpr hopen]
    rw [hhere] at hreach
    obtain ⟨hplace, hget⟩ := List.getElem?_eq_some_iff.mp hget
    have htext : text = text.take place ++ c :: text.drop (place + 1) := by
      rw [← hget, ← List.drop_eq_getElem_cons hplace, List.take_append_drop]
    calc
      splitTopLevel text [c]
        = splitTopLevel (text.take place ++ c :: text.drop (place + 1)) [c] := by rw [← htext]
      _ = (([text.take place] ++ pieces [c] (.source .code) none 0 []
            (text.drop (place + 1))).map trim).filter (!·.isEmpty) := by
          rw [splitTopLevel, pieces_reach_separator hseparators hreach (List.mem_singleton_self c),
            pieces_previous hseparators, List.singleton_append]
      _ = [trim (text.take place)].filter (!·.isEmpty) ++
            splitTopLevel (text.drop (place + 1)) [c] := by
          rw [List.map_append, List.filter_append, List.map_singleton, splitTopLevel]

/-- A property whose name holds a colon and an escaped quote and whose type holds a generic. -/
theorem splitTopLevel_eq_search_property :
    let text := "'a\\':' : M<k,v>=>w : z".toList
    Uncommented text ∧ Orderly text ':' ((findTopLevel? text ':').getD text.length) ∧
      findTopLevel? text ':' = some 7 ∧
      splitTopLevel text [':'] =
        "'a\\':'".toList :: splitTopLevel " M<k,v>=>w : z".toList [':'] := by
  intro text
  have huncommented : Uncommented text := by decide
  have horderly : Orderly text ':' ((findTopLevel? text ':').getD text.length) := by
    decide +kernel
  exact ⟨huncommented, horderly, by decide,
    splitTopLevel_eq_search text ':' (.inr (.inl rfl)) huncommented horderly⟩

/-- In a text without comments a search misses the separator behind a literal that ends with an
escaped backslash, and behind a closer too many it finds one that stands in brackets. The splitting
scan does neither. -/
theorem search_misses_separator :
    (Uncommented "'\\\\',b".toList ∧ findTopLevel? "'\\\\',b".toList ',' = none ∧
      splitTopLevel "'\\\\',b".toList [','] = ["'\\\\'".toList, "b".toList]) ∧
    Uncommented "a) (b, c".toList ∧ findTopLevel? "a) (b, c".toList ',' = some 5 ∧
      splitTopLevel "a) (b, c".toList [','] = ["a) (b, c".toList] := by
  decide

end CodeSurvey.Source
