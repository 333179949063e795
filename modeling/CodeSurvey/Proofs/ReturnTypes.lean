import CodeSurvey.Proofs.Phrases
import CodeSurvey.Proofs.ScanBounds
import Mathlib.Order.Bounds.Basic

/-!
# Return types

A return type is read without a grammar: outside brackets it ends before an arrow, before a brace
that does not start it, and before a semicolon, and no more characters are read than the ceiling
allows. So a type is read up to the body behind it unless one of these stands in it.

- `TypeText`: types in front of a body.
- `returnTypeLength_along`: the state of a reading that has not stopped yet.
- `returnType_le`: a reading stays below its ceiling.
- `returnType_stops`: where a reading stops.
- `returnType_misses_body`: types that are not read to their end.
-/

namespace CodeSurvey.Source

open Text

/-! ## Types in front of a body -/

/-- Whether a mark stands at a place outside brackets. -/
def TopLevelAt (text mark : List Char) (place : Nat) : Prop :=
  nesting text place = 0 ∧ mark <+: text.drop place

instance (text mark : List Char) (place : Nat) : Decidable (TopLevelAt text mark place) :=
  inferInstanceAs (Decidable (_ ∧ _))

/-- Whether a text ends with a mark behind which a type goes on, blanks aside. -/
def Awaits (text : List Char) : Prop :=
  ∃ mark ∈ ["|".toList, "&".toList, "=>".toList], mark <:+ trimEnd text

instance (text : List Char) : Decidable (Awaits text) :=
  inferInstanceAs (Decidable (∃ mark ∈ _, _))

/-- A type on one line without literals, comments and semicolons. Its brackets close, and a brace
outside brackets stands at its start or behind a mark that lets the type go on. -/
structure TypeText (type : List Char) : Prop where
  inked : isBlank type = false
  line : '\n' ∉ type
  quotes : ∀ c ∈ type, isQuote c = false
  semicolons : ';' ∉ type
  uncommented : Uncommented type
  closed : Closed type
  braces : ∀ place, TopLevelAt type ['{'] place →
    isBlank (type.take place) = true ∨ Awaits (type.take place)
  ends : ¬ Awaits type

/-- No mark stands behind the end of a text. -/
theorem TopLevelAt.lt_length {text mark : List Char} {place : Nat} (h : TopLevelAt text mark place)
    (hmark : mark ≠ []) : place < text.length := by
  by_contra hplace
  have hstarts := h.2
  rw [List.drop_eq_nil_of_le (Nat.le_of_not_lt hplace), List.prefix_nil] at hstarts
  exact hmark hstarts

/-- Braces are looked for in the type only. -/
theorem typeText_iff {type : List Char} : TypeText type ↔
    (isBlank type = false ∧ '\n' ∉ type ∧ type.any isQuote = false ∧ ';' ∉ type) ∧
      Uncommented type ∧ Closed type ∧
      (∀ place < type.length, TopLevelAt type ['{'] place →
        isBlank (type.take place) = true ∨ Awaits (type.take place)) ∧ ¬ Awaits type := by
  constructor
  · intro h
    have hquotes := any_isQuote_iff.mpr h.quotes
    exact ⟨⟨h.inked, h.line, hquotes, h.semicolons⟩, h.uncommented, h.closed,
      fun place _ => h.braces place, h.ends⟩
  · rintro ⟨⟨hinked, hline, hquotes, hsemicolons⟩, huncommented, hclosed, hbraces, hends⟩
    refine ⟨hinked, hline, any_isQuote_iff.mp hquotes, hsemicolons, huncommented, hclosed, ?_, hends⟩
    intro place hbrace
    exact hbraces place (hbrace.lt_length (List.cons_ne_nil _ _)) hbrace

instance (type : List Char) : Decidable (TypeText type) :=
  decidable_of_iff _ typeText_iff.symm

/-! ## The state of a reading -/

section

variable {text rest : List Char} {limit : Nat} {previous : Char}

/-- **Readings.** As long as no arrow and no brace of its own has stood outside brackets, a reading
has not stopped, and it stands at the nesting of its place. The induction is on the place. -/
theorem returnTypeLength_along (budget : Nat) (hquotes : ∀ c ∈ text, isQuote c = false)
    (hclosed : Closed text) (hsemicolons : ';' ∉ text) (hrest : rest.head? ≠ some '>')
    (hprevious : previous ≠ '=') (hlimit : limit ≤ text.length)
    (harrows : ∀ place < limit, ¬ TopLevelAt text ['=', '>'] place)
    (hbraces : ∀ place < limit, TopLevelAt text ['{'] place → isBlank (text.take place) = true) :
    returnTypeLength (limit + budget) 0 false previous (text ++ rest) =
      returnTypeLength budget (nesting text limit) (!isBlank (text.take limit))
        ((text.take limit).getLast?.getD previous) (text.drop limit ++ rest) + limit := by
  induction limit generalizing budget with
  | zero =>
    rw [nesting_zero, Nat.zero_add]
    rfl
  | succ limit ih =>
    have hnext := ih (budget + 1) (Nat.le_of_succ_le hlimit)
      (fun place hplace => harrows place (Nat.lt_succ_of_lt hplace))
      fun place hplace => hbraces place (Nat.lt_succ_of_lt hplace)
    have hplace : limit < text.length := hlimit
    have hdrop := List.drop_eq_getElem_cons hplace
    have htake := List.take_succ_eq_append_getElem hplace
    -- What stands before the text counts for the first bracket only if it is an equals sign.
    have hdepth : typeDepth (some ((text.take limit).getLast?.getD previous)) (nesting text limit)
        text[limit] = nesting text (limit + 1) := by
      have hlast : some ((text.take limit).getLast?.getD previous) =
          (text.take limit).getLast?.or (some previous) := by
        cases (text.take limit).getLast? <;> rfl
      rw [hlast, typeDepth_or (by simpa using hprevious)]
      exact typeDepth_eq_nesting hplace (codeAt_of_quotes hquotes limit)
    have hgoes (hzero : nesting text limit = 0) : ¬ (text[limit] = '{' ∧
        (!isBlank (text.take limit)) = true ∨ text[limit] = ';' ∨
          text[limit] = '=' ∧ (text.drop (limit + 1) ++ rest).head? = some '>') := by
      rintro (⟨hbrace, hinked⟩ | hsemicolon | ⟨hequals, hhead⟩)
      · have hblank := hbraces limit (Nat.lt_succ_self limit) ⟨hzero, by simp [hdrop, hbrace]⟩
        rw [hblank] at hinked
        contradiction
      · exact hsemicolons (hsemicolon ▸ List.getElem_mem hplace)
      · -- The second half of an arrow stands in the text, since the rest does not start with it.
        have hbehind : (text.drop (limit + 1)).head? = some '>' := by
          cases hmore : text.drop (limit + 1) with
          | nil =>
            rw [hmore, List.nil_append] at hhead
            contradiction
          | cons d more => simpa [hmore] using hhead
        obtain ⟨more, hmore⟩ := List.head?_eq_some_iff.mp hbehind
        exact harrows limit (Nat.lt_succ_self limit) ⟨hzero, by simp [hdrop, hequals, hmore]⟩
    have hopen : 0 ≤ typeDepth (some ((text.take limit).getLast?.getD previous))
        (nesting text limit) text[limit] := by
      rw [hdepth]
      exact hclosed.starts (limit + 1) hlimit
    have hinked : isBlank (text.take (limit + 1)) =
        (isBlank (text.take limit) && isSpace text[limit]) := by
      rw [htake, isBlank, isBlank, List.all_append, List.all_cons, List.all_nil, Bool.and_true]
    have hlast : (text.take (limit + 1)).getLast?.getD previous = text[limit] := by
      rw [htake, List.getLast?_concat, Option.getD_some]
    rw [Nat.succ_add_eq_add_succ, hnext, hdrop, List.cons_append,
      returnTypeLength_next hgoes hopen, hdepth, hinked, hlast, Bool.not_and]
    omega

end

/-! ## A whole reading -/

/-- **Ceilings.** A reading looks at no more characters behind its colon than the ceiling allows. -/
theorem returnType_le (before rest : List Char) (ceiling : Int) :
    (returnType (before ++ ':' :: rest) before.length ceiling).2 ≤
      before.length + 1 + ceiling.toNat := by
  rw [returnType_colon]
  have htaken := returnTypeLength_le rest ceiling.toNat 0 false ':'
  exact Nat.add_le_add_left (htaken.trans (Nat.min_le_left ..)) _

section

variable {type rest : List Char} {budget place : Nat}

/-- Before a body a type without arrows of its own is read to its end, and the blank behind it. -/
theorem TypeText.returnTypeLength_body (h : TypeText type)
    (harrows : ∀ place, ¬ TopLevelAt type ['=', '>'] place)
    (hbraces : ∀ place, TopLevelAt type ['{'] place → isBlank (type.take place) = true)
    (hbudget : type.length + 2 ≤ budget) (more : List Char) :
    returnTypeLength budget 0 false ':' (' ' :: (type ++ ' ' :: '{' :: more)) = type.length + 2 := by
  obtain ⟨left, rfl⟩ : ∃ left, budget = type.length + (left + 1) + 1 :=
    ⟨budget - type.length - 2, by omega⟩
  have hrest : (' ' :: '{' :: more).head? ≠ some '>' := by simp
  have halong := returnTypeLength_along (left + 1) h.quotes h.closed h.semicolons hrest
    (by decide : ' ' ≠ '=') (Nat.le_refl _) (fun place _ => harrows place)
    fun place _ => hbraces place
  rw [List.take_length, List.drop_length, List.nil_append, h.inked, h.closed.ends, Bool.not_false]
    at halong
  rw [returnTypeLength_blank (Int.le_refl 0), halong, returnTypeLength_blank (Int.le_refl 0),
    returnTypeLength_stops (.inl ⟨rfl, rfl⟩)]
  omega

/-- A type with an arrow of its own is read up to the first one. -/
theorem TypeText.returnTypeLength_arrow (h : TypeText type)
    (hfirst : IsLeast {place | TopLevelAt type ['=', '>'] place} place)
    (hbraces : ∀ brace < place, TopLevelAt type ['{'] brace → isBlank (type.take brace) = true)
    (hrest : rest.head? ≠ some '>') (hbudget : place + 1 ≤ budget) :
    returnTypeLength budget 0 false ':' (' ' :: (type ++ rest)) = place + 1 := by
  obtain ⟨left, rfl⟩ : ∃ left, budget = place + left + 1 := ⟨budget - place - 1, by omega⟩
  obtain ⟨⟨hzero, more, hmore⟩, hleast⟩ := hfirst
  have hlength : place < type.length := TopLevelAt.lt_length ⟨hzero, more, hmore⟩ (by simp)
  have halong := returnTypeLength_along left h.quotes h.closed h.semicolons hrest
    (by decide : ' ' ≠ '=') (Nat.le_of_lt hlength)
    (fun earlier hearlier harrow => Nat.not_le_of_lt hearlier (hleast harrow)) hbraces
  rw [hzero, ← hmore] at halong
  rw [returnTypeLength_blank (Int.le_refl 0), halong]
  show returnTypeLength left 0 _ _ ('=' :: '>' :: (more ++ rest)) + place + 1 = place + 1
  rw [returnTypeLength_stops (.inr (.inr ⟨rfl, rfl⟩)), Nat.zero_add]

end

/-- **Return types.** In front of a body a type is read to its end if it holds neither an arrow nor,
behind its start, a brace outside brackets: what is read is the type, and the brace of the body
comes next. If it holds an arrow, what is read is the part before the first one, and the arrow comes
next. -/
theorem returnType_stops (before more : List Char) {type : List Char} {ceiling : Int}
    (h : TypeText type)
    (hbraces : ∀ place, TopLevelAt type ['{'] place → isBlank (type.take place) = true ∨
      ∃ earlier < place, TopLevelAt type ['=', '>'] earlier)
    (hceiling : (type.length : Int) + 2 ≤ ceiling) :
    ((∀ place, ¬ TopLevelAt type ['=', '>'] place) →
      returnType (before ++ ':' :: ' ' :: (type ++ ' ' :: '{' :: more)) before.length ceiling =
        (some (squeeze type), before.length + 2 + type.length + 1)) ∧
    ∀ place, IsLeast {place | TopLevelAt type ['=', '>'] place} place →
      returnType (before ++ ':' :: ' ' :: (type ++ ' ' :: '{' :: more)) before.length ceiling =
        (if isBlank (type.take place) then none else some (squeeze (type.take place)),
          before.length + 2 + place) := by
  refine ⟨fun harrows => ?_, fun place hfirst => ?_⟩
  · have hstart : ∀ place, TopLevelAt type ['{'] place → isBlank (type.take place) = true := by
      intro place hbrace
      refine (hbraces place hbrace).resolve_right ?_
      rintro ⟨earlier, -, harrow⟩
      exact harrows earlier harrow
    have hlength := h.returnTypeLength_body harrows hstart (by omega : type.length + 2 ≤ ceiling.toNat)
      more
    have htake : (' ' :: (type ++ ' ' :: '{' :: more)).take (type.length + 2) =
        ' ' :: (type ++ [' ']) := by
      rw [List.take_succ_cons, List.take_length_add_append]
      rfl
    have hoffset : before.length + 1 + (type.length + 2) = before.length + 2 + type.length + 1 := by
      omega
    rw [returnType_colon, hlength, htake, squeeze_padded, squeeze_isEmpty h.inked, hoffset]
    rfl
  · have hlength : place < type.length := hfirst.1.lt_length (by simp)
    -- Before the first arrow there is none that a brace could stand behind.
    have hstart : ∀ brace < place, TopLevelAt type ['{'] brace →
        isBlank (type.take brace) = true := by
      intro brace hbefore hbrace
      refine (hbraces brace hbrace).resolve_right ?_
      rintro ⟨earlier, hearlier, harrow⟩
      exact Nat.not_le_of_lt (hearlier.trans hbefore) (hfirst.2 harrow)
    have hrest : (' ' :: '{' :: more).head? ≠ some '>' := by simp
    have hread := h.returnTypeLength_arrow hfirst hstart hrest
      (by omega : place + 1 ≤ ceiling.toNat)
    have htake : (' ' :: (type ++ ' ' :: '{' :: more)).take (place + 1) = ' ' :: type.take place := by
      rw [List.take_succ_cons, List.take_append_of_le_length (Nat.le_of_lt hlength)]
    rw [returnType_colon, hread, htake, squeeze_cons_blank]
    have hoffset : before.length + 1 + (place + 1) = before.length + 2 + place := by omega
    rw [hoffset]
    cases hblank : isBlank (type.take place) with
    | true =>
      rw [squeeze_of_blank hblank]
      rfl
    | false =>
      rw [squeeze_isEmpty hblank]

/-- A union that starts with an object type, and a function type, whose parameters are what is
read. -/
theorem returnType_stops_function :
    let union := "{ a: A } | Map<K, (x: V) => W>".toList
    let function := "(at: { x: X }) => { y: Y }".toList
    let brace (type : List Char) := ∀ place, TopLevelAt type ['{'] place →
      isBlank (type.take place) = true ∨ ∃ earlier < place, TopLevelAt type ['=', '>'] earlier
    (TypeText union ∧ brace union ∧ (∀ place, ¬ TopLevelAt union ['=', '>'] place) ∧
      returnType ("f()".toList ++ ':' :: ' ' :: (union ++ ' ' :: '{' :: ['}'])) 3 =
        (some union, 36)) ∧
    TypeText function ∧ brace function ∧
      IsLeast {place | TopLevelAt function ['=', '>'] place} 15 ∧
      returnType ("f()".toList ++ ':' :: ' ' :: (function ++ ' ' :: '{' :: ['}'])) 3 =
        (some "(at: { x: X })".toList, 20) := by
  intro union function brace
  have hunion : TypeText union := by decide +kernel
  have hfunction : TypeText function := by decide +kernel
  have hceilings : (union.length : Int) + 2 ≤ signatureCeiling ∧
      (function.length : Int) + 2 ≤ signatureCeiling := by decide +kernel
  have hbraces : ∀ type ∈ [union, function], ∀ place < type.length, TopLevelAt type ['{'] place →
      isBlank (type.take place) = true ∨ ∃ earlier < place, TopLevelAt type ['=', '>'] earlier := by
    decide +kernel
  have hbrace (type : List Char) (htype : type ∈ [union, function]) : brace type :=
    fun place h => hbraces type htype place (h.lt_length (by simp)) h
  have harrows : ∀ place < union.length, ¬ TopLevelAt union ['=', '>'] place := by decide +kernel
  have harrow (place : Nat) : ¬ TopLevelAt union ['=', '>'] place :=
    fun h => harrows place (h.lt_length (by simp)) h
  have hstands : TopLevelAt function ['=', '>'] 15 := by decide +kernel
  have hbefore : ∀ place < 15, ¬ TopLevelAt function ['=', '>'] place := by decide +kernel
  have hfirst : IsLeast {place | TopLevelAt function ['=', '>'] place} 15 :=
    ⟨hstands, fun place h => Nat.le_of_not_lt fun hlt => hbefore place hlt h⟩
  have hbraceUnion := hbrace union List.mem_cons_self
  have hbraceFunction := hbrace function (List.mem_cons_of_mem _ List.mem_cons_self)
  refine ⟨⟨hunion, hbraceUnion, harrow, ?_⟩, hfunction, hbraceFunction, hfirst, ?_⟩
  · have hread := (returnType_stops "f()".toList ['}'] hunion hbraceUnion hceilings.1).1 harrow
    exact hread.trans (by decide +kernel)
  · have hread := (returnType_stops "f()".toList ['}'] hfunction hbraceFunction hceilings.2).2 15 hfirst
    exact hread.trans (by decide +kernel)

/-- A name made up of Latin letters is a type in front of a body. -/
theorem typeText_of_letters {text : List Char} (hne : text ≠ [])
    (hletters : ∀ c ∈ text, CharSet.letters.mem c = true) : TypeText text := by
  -- Every mark is something else than a letter, so none stands in the text.
  have hother (mark : Char) (hmark : CharSet.letters.mem mark = false) : mark ∉ text := by
    intro hmem
    rw [hletters mark hmem] at hmark
    contradiction
  have hplain : ∀ c ∈ text, isPlain c = true := by
    have hwithin : CharSet.letters.within identifierRest = true := by decide +kernel
    exact fun c hc => (isPlain_of_identifierRest (CharSet.mem_of_within hwithin (hletters c hc))).1
  have hphrase : Phrase [] text := phrase_of_plain hne hplain fun _ _ => List.not_mem_nil
  obtain ⟨c, others, hcons⟩ := List.exists_cons_of_ne_nil hne
  exact {
    inked := by
      rw [isBlank, hcons, List.all_cons, isSpace_of_isPlain (hplain c (hcons ▸ List.mem_cons_self)),
        Bool.false_and]
    line := hother '\n' (by decide)
    quotes := hphrase.quotes
    semicolons := hother ';' (by decide)
    uncommented := hphrase.uncommented
    closed := hphrase.closed
    braces := fun place hbrace =>
      absurd (List.mem_of_mem_drop (hbrace.2.subset List.mem_cons_self)) (hother '{' (by decide))
    ends := by
      rintro ⟨mark, hmark, hends⟩
      have hmarks : ∀ mark ∈ ["|".toList, "&".toList, "=>".toList],
          (mark.any fun c => !CharSet.letters.mem c) = true := by decide
      obtain ⟨c, hc, hletter⟩ := List.any_eq_true.mp (hmarks mark hmark)
      rw [Bool.not_eq_true'] at hletter
      exact hother c hletter ((List.rdropWhile_prefix _ _).subset (hends.subset hc)) }

/-- **Other braces and arrows.** A function type is cut off before its arrow, a union before an object
type that does not start it, and a long type at the ceiling. None of them is read up to the brace of
the body. -/
theorem returnType_misses_body :
    let annotated (type : List Char) := ':' :: ' ' :: (type ++ ' ' :: '{' :: ['}'])
    let body (type : List Char) := (some (squeeze type), 2 + type.length + 1)
    (TypeText "() => void".toList ∧ body "() => void".toList = (some "() => void".toList, 13) ∧
      returnType (annotated "() => void".toList) 0 = (some "()".toList, 5)) ∧
    (TypeText "A | { x }".toList ∧ body "A | { x }".toList = (some "A | { x }".toList, 12) ∧
      returnType (annotated "A | { x }".toList) 0 = (some "A |".toList, 6)) ∧
    TypeText (List.replicate 4999 'a') ∧ (body (List.replicate 4999 'a')).2 = 5002 ∧
      (returnType (annotated (List.replicate 4999 'a')) 0).2 ≤ 5001 := by
  intro annotated body
  refine ⟨?_, ?_, ?_, ?_, ?_⟩
  · decide +kernel
  · decide +kernel
  · have hne : List.replicate 4999 'a' ≠ [] := List.cons_ne_nil 'a' (List.replicate 4998 'a')
    apply typeText_of_letters hne
    intro c hc
    rw [List.eq_of_mem_replicate hc]
    decide
  · show 2 + (List.replicate 4999 'a').length + 1 = 5002
    rw [List.length_replicate]
  · exact returnType_le [] _ signatureCeiling

end CodeSurvey.Source
