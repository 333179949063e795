import CodeSurvey.Extract.Components
import CodeSurvey.Proofs.LineFeeds
import CodeSurvey.Proofs.Phrases

/-!
# Bindings of props

The first parameter of a component may be a pattern that binds props by their names, each perhaps
under another name and with a default. A printed pattern comes apart at its commas, and of each part
the name is read that stands in front of the first colon and the first equals sign.

- `Steady`: texts that leave every scan as they found it; `Steady.whole`, `Steady.braced`.
- `BindingText`, `patternInner`: what is printed.
- `boundName?_text`: one binding is read back.
- `boundNames_printed`: so is a pattern.
- `props_pattern`: the props that a pattern with a type binds.
-/

namespace CodeSurvey.Source

open Text Reading Pattern

/-! ## Steady texts -/

/-- A text without quotes, comments and arrows in which brackets are balanced, parentheses and
braces also by themselves, and separators stand in brackets only. -/
structure Steady (separators text : List Char) : Prop where
  quotes : ∀ c ∈ text, isQuote c = false
  uncommented : Uncommented text
  arrows : ¬['=', '>'] <:+: text
  balanced : Balanced isTypeOpener isTypeCloser text
  parentheses : Balanced (· == '(') (· == ')') text
  braces : Balanced (· == '{') (· == '}') text
  encloses : ∀ (place : Nat) (h : place < text.length), text[place] ∈ separators →
    (text.take place).countP isTypeCloser < (text.take place).countP isTypeOpener

/-- What a text that is steady is can be seen by looking at its characters one by one. -/
theorem steady_iff {separators text : List Char} : Steady separators text ↔
    text.any isQuote = false ∧ Uncommented text ∧ ¬['=', '>'] <:+: text ∧
      (Balanced isTypeOpener isTypeCloser text ∧ Balanced (· == '(') (· == ')') text ∧
        Balanced (· == '{') (· == '}') text) ∧
      ∀ (place : Nat) (h : place < text.length), text[place] ∈ separators →
        (text.take place).countP isTypeCloser < (text.take place).countP isTypeOpener := by
  constructor
  · intro h
    exact ⟨any_isQuote_iff.mpr h.quotes, h.uncommented, h.arrows,
      ⟨h.balanced, h.parentheses, h.braces⟩, h.encloses⟩
  · rintro ⟨hquotes, huncommented, harrows, ⟨hbalanced, hparentheses, hbraces⟩, hencloses⟩
    exact ⟨any_isQuote_iff.mp hquotes, huncommented, harrows, hbalanced, hparentheses, hbraces,
      hencloses⟩

instance (separators text : List Char) : Decidable (Steady separators text) :=
  decidable_of_iff _ steady_iff.symm

/-- Characters that no scan counts. -/
def isIdle (c : Char) : Bool :=
  !isQuote c && !isTypeBracket c && c != '/'

section

variable {separators text first second inner : List Char} {c mark : Char}

theorem isIdle_iff : isIdle c = true ↔
    isQuote c = false ∧ isTypeBracket c = false ∧ c ≠ '/' := by
  simp [isIdle, and_assoc]

theorem isIdle_of_isPlain (h : isPlain c = true) : isIdle c = true := by
  simp only [isPlain, Bool.and_eq_true] at h
  simp only [isIdle, h.1.1.2, h.1.2, h.2, Bool.and_self]

/-- None of them is a bracket of any kind. -/
theorem bracket_of_isIdle (h : isIdle c = true) :
    (isTypeOpener c = false ∧ isTypeCloser c = false) ∧
    ((c == '(') = false ∧ (c == ')') = false) ∧ (c == '{') = false ∧ (c == '}') = false := by
  have hbracket := (isIdle_iff.mp h).2.1
  have hne {d : Char} (hd : isTypeBracket d = true) : (c == d) = false := by
    rw [beq_eq_false_iff_ne]
    rintro rfl
    rw [hbracket] at hd
    contradiction
  have hopener := (isTypeBracket_plain hbracket none).1
  refine ⟨⟨hopener, ?_⟩, ⟨hne rfl, hne rfl⟩, hne rfl, hne rfl⟩
  simp only [isTypeBracket, Bool.or_eq_false_iff] at hbracket
  rw [isTypeCloser, hbracket.1.2, hne rfl, Bool.or_false]

/-- Idle characters that are no separators make a steady text. -/
theorem steady_of_idle (h : ∀ c ∈ text, isIdle c = true)
    (hseparators : ∀ c ∈ text, c ∉ separators) :
    Steady separators text where
  quotes c hc := (isIdle_iff.mp (h c hc)).1
  uncommented := uncommented_of_slash fun hmem => (isIdle_iff.mp (h _ hmem)).2.2 rfl
  arrows hpart := absurd (h '>' (hpart.subset (by simp))) (by decide)
  balanced := balanced_of_none fun c hc => (bracket_of_isIdle (h c hc)).1
  parentheses := balanced_of_none fun c hc => (bracket_of_isIdle (h c hc)).2.1
  braces := balanced_of_none fun c hc => (bracket_of_isIdle (h c hc)).2.2
  encloses place hplace hc := absurd hc (hseparators _ (List.getElem_mem hplace))

/-- Separators do not matter where there are none. -/
theorem Steady.nil_separators (h : Steady separators text) : Steady [] text :=
  { h with encloses := fun _ _ hc => by contradiction }

/-- Steady texts with a character between them that is no part of a mark make a steady text. -/
theorem Steady.append_cons (hfirst : Steady separators first) (hsecond : Steady separators second)
    (hidle : isIdle mark = true) (hmark : mark ∉ ['*', '=']) (hseparator : mark ∉ separators) :
    Steady separators (first ++ mark :: second) := by
  have hslash := (isIdle_iff.mp hidle).2.2
  have hangle : mark ≠ '>' := by
    rintro rfl
    contradiction
  simp only [List.mem_cons, List.not_mem_nil, or_false, not_or] at hmark
  -- No mark of comments or arrows is made of the character, so each of them would stand in one
  -- text.
  have hapart {needle : List Char} (hneedle : mark ∉ needle) (h : ¬needle <:+: first)
      (h' : ¬needle <:+: second) : ¬needle <:+: first ++ mark :: second := by
    rw [infix_append_cons_iff hneedle]
    exact not_or.mpr ⟨h, h'⟩
  have hnone {opens closes : Char → Bool} (h : opens mark = false ∧ closes mark = false) :
      Balanced opens closes [mark] :=
    balanced_of_none fun c hc => List.mem_singleton.mp hc ▸ h
  obtain ⟨htype, hparenthesis, hbrace⟩ := bracket_of_isIdle hidle
  have htext : first ++ mark :: second = first ++ ([mark] ++ second) := rfl
  refine {
    quotes := ?_
    uncommented := ⟨hapart (by simp [hslash]) hfirst.uncommented.1 hsecond.uncommented.1,
      hapart (by simp [hslash, hmark.1]) hfirst.uncommented.2 hsecond.uncommented.2⟩
    arrows := hapart (by simp [hmark.2, hangle]) hfirst.arrows hsecond.arrows
    balanced := htext ▸ hfirst.balanced.append ((hnone htype).append hsecond.balanced)
    parentheses :=
      htext ▸ hfirst.parentheses.append ((hnone hparenthesis).append hsecond.parentheses)
    braces := htext ▸ hfirst.braces.append ((hnone hbrace).append hsecond.braces)
    encloses := ?_ }
  · intro c hc
    rcases List.mem_append.mp hc with hc | hc
    · exact hfirst.quotes c hc
    · rcases List.mem_cons.mp hc with rfl | hc
      · exact (isIdle_iff.mp hidle).1
      · exact hsecond.quotes c hc
  · intro place hplace hc
    -- A separator stands in front of the character or behind it: the brackets that enclose it there
    -- do so still, as those of the first text are closed at its end.
    rcases Nat.lt_trichotomy place first.length with hlt | rfl | hgt
    · rw [List.getElem_append_left hlt] at hc
      rw [List.take_append_of_le_length hlt.le]
      exact hfirst.encloses place hlt hc
    · rw [List.getElem_append_right (Nat.le_refl _)] at hc
      simp only [Nat.sub_self, List.getElem_cons_zero] at hc
      exact absurd hc hseparator
    · obtain ⟨further, rfl⟩ : ∃ further, place = first.length + (further + 1) :=
        ⟨place - first.length - 1, by omega⟩
      have hfurther : further < second.length := by
        simp only [List.length_append, List.length_cons] at hplace
        omega
      rw [List.getElem_append_right (Nat.le_add_right _ _)] at hc
      simp only [Nat.add_sub_cancel_left, List.getElem_cons_succ] at hc
      have hinner := hsecond.encloses further hfurther hc
      have htotal := hfirst.balanced.total
      simp only [List.take_length_add_append, List.take_succ_cons, List.countP_append,
        List.countP_cons, htype]
      omega

/-- A blank in front of a steady text leaves it steady. -/
theorem Steady.indented (h : Steady separators text) (hblank : ' ' ∉ separators) :
    Steady separators (' ' :: text) := by
  have hnil : Steady separators [] :=
    steady_of_idle (fun c hc => by contradiction) fun c hc => by contradiction
  exact hnil.append_cons h rfl (by decide) hblank

/-- Braces around a steady text enclose every separator. -/
theorem Steady.braced (h : Steady [] inner) (hbraces : '{' ∉ separators ∧ '}' ∉ separators) :
    Steady separators ('{' :: (inner ++ ['}'])) := by
  have hapart {needle : List Char} (hneedle : '{' ∉ needle ∧ '}' ∉ needle) (hnil : needle ≠ [])
      (hinner : ¬needle <:+: inner) : ¬needle <:+: '{' :: (inner ++ ['}']) := by
    have hopening := infix_append_cons_iff hneedle.1 [] (inner ++ ['}'])
    rw [List.nil_append, infix_append_cons_iff hneedle.2] at hopening
    simp [hopening, hinner, hnil]
  refine {
    quotes := ?_
    uncommented := ⟨hapart (by simp) (by simp) h.uncommented.1,
      hapart (by simp) (by simp) h.uncommented.2⟩
    arrows := hapart (by simp) (by simp) h.arrows
    balanced := h.balanced.enclosed (by decide) (by decide)
    parentheses := ?_
    braces := h.braces.enclosed (by decide) (by decide)
    encloses := ?_ }
  · intro c hc
    simp only [List.mem_cons, List.mem_append, List.not_mem_nil, or_false] at hc
    rcases hc with rfl | hc | rfl
    · rfl
    · exact h.quotes c hc
    · rfl
  · have hnone (c : Char) (hc : c = '{' ∨ c = '}') :
        Balanced (· == '(') (· == ')') [c] := by
      rcases hc with rfl | rfl <;> exact balanced_of_none (by decide)
    exact (hnone '{' (.inl rfl)).append (h.parentheses.append (hnone '}' (.inr rfl)))
  · intro place hplace hc
    -- Within the braces at least one bracket is open, whether or not the text encloses the
    -- separator itself.
    cases place with
    | zero => exact absurd hc hbraces.1
    | succ place =>
      rw [List.getElem_cons_succ] at hc
      by_cases hlt : place < inner.length
      · have hstart := h.balanced.starts place
        rw [List.take_succ_cons, List.take_append_of_le_length hlt.le]
        simp only [List.countP_cons, isTypeOpener, isTypeCloser, isOpener, isCloser] at hstart ⊢
        simp
        omega
      · rw [List.getElem_append_right (Nat.not_lt.mp hlt), List.getElem_singleton] at hc
        exact absurd hc hbraces.2

/-- A steady text is read as one piece. -/
theorem Steady.whole (h : Steady separators text) : Whole separators text := by
  have hapart : ∀ c, isTypeOpener c = true → isTypeCloser c = false :=
    fun _ => isTypeCloser_of_isTypeOpener
  have hbrackets (front : List Char) (c : Char) (back : List Char)
      (htext : text = front ++ c :: back) : isTypeOpener c = isTypeOpener c ∧
        closesTopLevel (front.getLast?.or none) c = isTypeCloser c := by
    refine ⟨rfl, ?_⟩
    rw [Option.or_none, closesTopLevel, isTypeCloser]
    by_cases hangle : c = '>'
    · -- It closes something, so it is neither the first character nor the end of an arrow.
      have hbefore : front.getLast?.any (· != '=') = true := by
        cases hlast : front.getLast? with
        | none =>
          have hstart := h.balanced.starts 1
          rw [htext, List.getLast?_eq_none_iff.mp hlast, hangle] at hstart
          exact absurd (show ['>'].countP isTypeCloser ≤ ['>'].countP isTypeOpener from hstart)
            (by decide)
        | some d =>
          obtain ⟨most, rfl⟩ := List.getLast?_eq_some_iff.mp hlast
          rw [Option.any_some, bne_iff_ne]
          rintro rfl
          exact h.arrows ⟨most, back, by rw [htext, hangle]; simp⟩
      rw [hbefore, Bool.and_true]
    · rw [beq_eq_false_iff_ne.mpr hangle, Bool.false_and]
  refine reach_settles hapart 0 0 none h.quotes hbrackets h.uncommented (h.balanced.settles hapart)
    fun place hplace hc => ?_
  rw [Nat.zero_add]
  exact h.encloses place hplace hc

/-- Blanks around a text make no difference to how it is split. -/
theorem splitTopLevel_append_blank (hseparators : ∀ c ∈ separators, isSeparator c)
    (hblank : ' ' ∉ separators) {others : List (Char × List Char)} (hfirst : Whole separators first)
    (hothers : ∀ other ∈ others, other.1 ∈ separators ∧ Whole separators other.2) :
    splitTopLevel ((first ++ others.flatMap fun other => other.1 :: other.2) ++ [' ']) separators =
      ((first :: others.map (·.2)).map trim).filter (!·.isEmpty) := by
  have hend {chunk : List Char} (h : Whole separators chunk) : Whole separators (chunk ++ [' ']) :=
    h.append_blank hblank ⟨none, rfl⟩
  -- The blank is a part of the last chunk, whichever that is.
  obtain rfl | ⟨init, last, rfl⟩ := List.eq_nil_or_concat' others
  · have hpieces := pieces_list hseparators (hend hfirst) hothers
    rw [List.flatMap_nil, List.append_nil] at hpieces ⊢
    rw [splitTopLevel, hpieces, List.map_cons, trim_concat_blank rfl]
    rfl
  · obtain ⟨hinit, hlast⟩ := List.forall_mem_append.mp hothers
    obtain ⟨hc, hlast⟩ := hlast last (List.mem_singleton_self last)
    have htext : (first ++ (init ++ [last]).flatMap fun other => other.1 :: other.2) ++ [' '] =
        first ++ (init ++ [(last.1, last.2 ++ [' '])]).flatMap fun other => other.1 :: other.2 := by
      simp
    have hmarked : ∀ other ∈ init ++ [(last.1, last.2 ++ [' '])],
        other.1 ∈ separators ∧ Whole separators other.2 :=
      List.forall_mem_append.mpr ⟨hinit, List.forall_mem_singleton.mpr ⟨hc, hend hlast⟩⟩
    have htrim : trim (last.2 ++ [' ']) = trim last.2 := trim_concat_blank rfl last.2
    rw [htext, splitTopLevel, pieces_list hseparators hfirst hmarked]
    simp only [List.map_cons, List.map_append, List.map_nil, htrim]

end

/-! ## Names -/

/-- Nothing in an identifier is a mark. -/
theorem idle_of_identifier {name : List Char} (h : Extract.isIdentifier name = true) :
    ∀ c ∈ name, isIdle c = true ∧ isSpace c = false ∧ c ∉ listMarks := by
  obtain ⟨-, hname⟩ := isName_iff.mp (isName_of_isIdentifier h)
  exact fun c hc => ⟨isIdle_of_isPlain (hname c hc).1, isSpace_of_isPlain (hname c hc).1,
    (hname c hc).2⟩

/-- An identifier is steady. -/
theorem steady_identifier {name : List Char} (h : Extract.isIdentifier name = true) :
    Steady [','] name := by
  have hname := idle_of_identifier h
  refine steady_of_idle (fun c hc => (hname c hc).1) fun c hc hcomma => (hname c hc).2.2 ?_
  rw [List.mem_singleton.mp hcomma]
  decide

/-- Nothing is trimmed off it. -/
theorem trim_identifier {name : List Char} (h : Extract.isIdentifier name = true) :
    trim name = name :=
  trim_of_squeezed (squeeze_of_inked fun c hc => (idle_of_identifier h c hc).2.1)

/-! ## Bindings -/

/-- The parts of a binding: the name of the prop, the name that it is bound to if that is another
one, and its default. -/
structure BindingText where
  name : List Char
  alias? : Option (List Char)
  default? : Option (List Char)

namespace BindingText

/-- What stands in front of the default. -/
def label (b : BindingText) : List Char :=
  match b.alias? with
  | some other => b.name ++ ':' :: ' ' :: other
  | none => b.name

/-- The binding as it is printed. -/
def text (b : BindingText) : List Char :=
  match b.default? with
  | some default => b.label ++ ' ' :: '=' :: ' ' :: default
  | none => b.label

/-- The names are identifiers, and the default is steady. -/
structure Plain (b : BindingText) : Prop where
  name : Extract.isIdentifier b.name = true
  other : ∀ other ∈ b.alias?, Extract.isIdentifier other = true
  default : ∀ default ∈ b.default?, Steady [','] default

instance (b : BindingText) : Decidable b.Plain :=
  decidable_of_iff (Extract.isIdentifier b.name = true ∧
      (∀ other ∈ b.alias?, Extract.isIdentifier other = true) ∧
      ∀ default ∈ b.default?, Steady [','] default)
    ⟨fun h => ⟨h.1, h.2.1, h.2.2⟩, fun h => ⟨h.name, h.other, h.default⟩⟩

variable {b : BindingText}

/-- The names of a binding are steady. -/
theorem Plain.steady_label (h : b.Plain) : Steady [','] b.label := by
  rw [label]
  cases hother : b.alias? with
  | none => exact steady_identifier h.name
  | some other =>
    have hbehind := (steady_identifier (h.other other hother)).indented (by decide)
    exact (steady_identifier h.name).append_cons hbehind rfl (by decide) (by decide)

theorem Plain.steady_text (h : b.Plain) : Steady [','] b.text := by
  rw [text]
  cases hdefault : b.default? with
  | none => exact h.steady_label
  | some default =>
    have hequals : Steady [','] ['='] := by decide
    have hbehind : Steady [','] (['='] ++ ' ' :: default) :=
      hequals.append_cons (h.default default hdefault) rfl (by decide) (by decide)
    exact h.steady_label.append_cons hbehind rfl (by decide) (by decide)

/-! ## One binding -/

/-- Nothing but the names, a colon and a blank stands in front of the default. -/
theorem Plain.idle_label (h : b.Plain) : ∀ c ∈ b.label, isIdle c = true ∧ c ≠ '=' := by
  have hidentifier {name : List Char} (hname : Extract.isIdentifier name = true) :
      ∀ c ∈ name, isIdle c = true ∧ c ≠ '=' := by
    intro c hc
    obtain ⟨hidle, -, hmark⟩ := idle_of_identifier hname c hc
    refine ⟨hidle, ?_⟩
    rintro rfl
    exact hmark (by decide)
  rw [label]
  cases hother : b.alias? with
  | none => exact hidentifier h.name
  | some other =>
    intro c hc
    simp only [List.mem_append, List.mem_cons] at hc
    rcases hc with hc | rfl | rfl | hc
    · exact hidentifier h.name c hc
    · decide
    · decide
    · exact hidentifier (h.other other hother) c hc

/-- Neither at its start nor at its end a blank stands. -/
theorem Plain.inked_label (h : b.Plain) :
    (∃ c, b.label.head? = some c ∧ identifierStart.mem c = true) ∧
    ∃ c, b.label.getLast? = some c ∧ isSpace c = false := by
  have hlast {name : List Char} (hname : Extract.isIdentifier name = true) :
      ∃ c, name.getLast? = some c ∧ isSpace c = false := by
    have hne : name ≠ [] := (isName_iff.mp (isName_of_isIdentifier hname)).1
    exact ⟨_, List.getLast?_eq_some_getLast hne,
      (idle_of_identifier hname _ (List.getLast_mem hne)).2.1⟩
  rw [label]
  cases hother : b.alias? with
  | none =>
    have hhead := Extract.head?_identifier [] h.name
    rw [List.append_nil] at hhead
    exact ⟨hhead, hlast h.name⟩
  | some other =>
    refine ⟨Extract.head?_identifier _ h.name, ?_⟩
    obtain ⟨c, hc, hinked⟩ := hlast (h.other other hother)
    have hne : other ≠ [] := by
      rintro rfl
      contradiction
    refine ⟨c, ?_, hinked⟩
    rw [List.getLast?_append_of_ne_nil _ (List.cons_ne_nil _ _), List.getLast?_cons_cons,
      List.getLast?_cons_of_ne_nil hne, hc]

/-- The name is what stands in front of the first colon. -/
theorem Plain.key_label (h : b.Plain) {gap : List Char} (hgap : gap = [] ∨ gap = [' ']) :
    trim ((b.label ++ gap).take
      ((findTopLevel? (b.label ++ gap) ':').getD (b.label ++ gap).length)) = b.name := by
  have hname := idle_of_identifier h.name
  have htrim : trim b.name = b.name := trim_identifier h.name
  have hcolon : ':' ∉ b.name := fun hmem => (hname ':' hmem).2.2 (by decide)
  rw [label]
  cases b.alias? with
  | none =>
    have hnone : findTopLevel? (b.name ++ gap) ':' = none := by
      refine findTopLevel?_eq_none fun hmem => ?_
      rcases List.mem_append.mp hmem with hmem | hmem
      · exact hcolon hmem
      · rcases hgap with rfl | rfl <;> simp at hmem
    rw [hnone, Option.getD_none, List.take_length]
    rcases hgap with rfl | rfl
    · rw [List.append_nil, htrim]
    · rw [trim_concat_blank rfl, htrim]
  | some other =>
    have hplain : ∀ c ∈ b.name, isPlain c = true :=
      fun c hc => ((isName_iff.mp (isName_of_isIdentifier h.name)).2 c hc).1
    rw [List.append_assoc, List.cons_append, findTopLevel?_plain rfl hplain hcolon,
      Option.getD_some, List.take_left, htrim]

/-- The default starts at the first equals sign. -/
theorem Plain.findTopLevel?_equals (h : b.Plain) {rest : List Char}
    (hrest : rest.head? ≠ some '=' ∧ rest.head? ≠ some '>') :
    findTopLevel? (b.label ++ ' ' :: '=' :: rest) '=' = some (b.label.length + 1) := by
  have hidle : ∀ c ∈ b.label ++ [' '], isIdle c = true ∧ c ≠ '=' := by
    intro c hc
    rcases List.mem_append.mp hc with hc | hc
    · exact h.idle_label c hc
    · rw [List.mem_singleton.mp hc]
      decide
  have hskims : Skims (b.label ++ [' ']) :=
    skims_of_closed (fun c hc => (isIdle_iff.mp (hidle c hc).1).1)
      (closed_of_brackets fun c hc => (isIdle_iff.mp (hidle c hc).1).2.1)
      (arrows_of_equals fun hmem => (hidle '=' hmem).2 rfl)
  have hfound : topLevelAhead? '=' none 0 (some ' ') ('=' :: rest) = some 0 := by
    simp [topLevelAhead?, isQuote, isTypeOpener, isOpener, isCloser, assigns, hrest]
  have hsplit : b.label ++ ' ' :: '=' :: rest = (b.label ++ [' ']) ++ '=' :: rest := by simp
  rw [findTopLevel?, hsplit, hskims none _ (by simp), List.getLast?_concat, Option.some_or, hfound,
    Option.map_some, List.length_append, List.length_singleton, Nat.zero_add]

/-- A binding starts with a character of a name. -/
theorem Plain.exists_head?_label (h : b.Plain) (rest : List Char) :
    ∃ c, (b.label ++ rest).head? = some c ∧ identifierStart.mem c = true := by
  obtain ⟨⟨c, hc, hstart⟩, -⟩ := h.inked_label
  refine ⟨c, ?_, hstart⟩
  rw [List.head?_append, hc, Option.some_or]

/-- So it does not stand for all other props. -/
theorem Plain.startsWith_label (h : b.Plain) (rest : List Char) :
    startsWith (b.label ++ rest) "...".toList = false := by
  obtain ⟨c, hc, hstart⟩ := h.exists_head?_label rest
  obtain ⟨others, hothers⟩ := List.head?_eq_some_iff.mp hc
  have hfull : ('.' == c) = false := by
    rw [beq_eq_false_iff_ne]
    rintro rfl
    exact absurd hstart (by decide)
  rw [hothers]
  show (('.' == c) && _) = false
  rw [hfull, Bool.false_and]

/-- Nothing is trimmed in front of it. -/
theorem Plain.trim_label (h : b.Plain) (rest : List Char) :
    trim (b.label ++ rest) = trimEnd (b.label ++ rest) := by
  obtain ⟨first, hfirst, hstart⟩ := h.exists_head?_label rest
  refine trim_of_inked_start fun c hc => ?_
  rw [hfirst] at hc
  rw [← Option.some.inj hc]
  exact Extract.isSpace_of_identifierStart hstart

/-- With its default trimmed, a binding still has the equals sign by itself. -/
theorem Plain.exists_trim_default (h : b.Plain) (default : List Char) :
    ∃ tail, trim (b.label ++ ' ' :: '=' :: ' ' :: default) = b.label ++ ' ' :: '=' :: tail ∧
      tail.head? ≠ some '=' ∧ tail.head? ≠ some '>' := by
  refine ⟨trimEnd (' ' :: default), ?_, ?_⟩
  · have hsplit : b.label ++ ' ' :: '=' :: ' ' :: default =
        (b.label ++ [' ', '=']) ++ ' ' :: default := by simp
    have hend : (b.label ++ [' ', '=']).getLast? = some '=' := by simp
    rw [h.trim_label, hsplit, trimEnd_append_inked hend rfl]
    simp
  · -- What is left of the default is empty or begins with its blank.
    have hprefix : trimEnd (' ' :: default) <+: ' ' :: default := List.rdropWhile_prefix isSpace _
    cases hcons : trimEnd (' ' :: default) with
    | nil => simp
    | cons c others =>
      rw [hcons] at hprefix
      rw [(List.cons_prefix_cons.mp hprefix).1]
      simp

/-- **One binding.** A printed binding is read back, also with blanks around it. -/
theorem Plain.boundName?_text (h : b.Plain) :
    Extract.boundName? (trim b.text) = some (String.ofList b.name, b.default?.isSome) := by
  have hmatch : (identifier.matchAll? b.name).isSome = true := by
    rw [matchAll?_prefers (Extract.prefers_identifier 0 h.name rfl)]
    rfl
  rw [text]
  cases hdefault : b.default? with
  -- Without a default the whole binding is the label.
  | none =>
    have hequals : findTopLevel? b.label '=' = none :=
      findTopLevel?_eq_none fun hmem => (h.idle_label '=' hmem).2 rfl
    obtain ⟨-, last, hlast, hinked⟩ := h.inked_label
    have htrim := h.trim_label []
    have hkey := h.key_label (.inl rfl)
    have hstart := h.startsWith_label []
    rw [List.append_nil] at htrim hkey hstart
    simp only [htrim, trimEnd_of_inked hlast hinked]
    rw [Extract.boundName?, hstart, hequals]
    simp only [Bool.false_eq_true, if_false, Option.getD_none, List.take_length, hkey, hmatch,
      if_true]
    rfl
  | some default =>
    obtain ⟨tail, htrim, htail⟩ := h.exists_trim_default default
    have hkey := h.key_label (.inr rfl)
    have htake : (b.label ++ ' ' :: '=' :: tail).take (b.label.length + 1) = b.label ++ [' '] := by
      simp [List.take_append]
    simp only [htrim]
    rw [Extract.boundName?, h.startsWith_label, h.findTopLevel?_equals htail]
    simp only [Bool.false_eq_true, if_false, Option.getD_some, htake, hkey, hmatch, if_true]
    rfl

end BindingText

/-! ## Patterns -/

open BindingText

variable {bs : List BindingText} {rest? : Option (List Char)}

/-- The parts of a pattern: bindings, and a name for all other props perhaps. -/
def patternParts (bs : List BindingText) (rest? : Option (List Char)) : List (List Char) :=
  bs.map BindingText.text ++ (rest?.map ("...".toList ++ ·)).toList

/-- What is printed between the braces of a pattern. -/
def patternInner (bs : List BindingText) (rest? : Option (List Char)) : List Char :=
  ' ' :: (join [',', ' '] (patternParts bs rest?) ++ [' '])

/-- The name for all other props is steady too, and nothing in it is blank. -/
theorem steady_rest {name : List Char} (h : Extract.isIdentifier name = true) :
    Steady [','] ("...".toList ++ name) ∧ ∀ c ∈ "...".toList ++ name, isSpace c = false := by
  have hidle : ∀ c ∈ "...".toList ++ name, isIdle c = true ∧ isSpace c = false ∧ c ∉ [','] := by
    intro c hc
    rcases List.mem_append.mp hc with hc | hc
    · have hdots : ∀ c ∈ "...".toList, isIdle c = true ∧ isSpace c = false ∧ c ∉ [','] := by decide
      exact hdots c hc
    · obtain ⟨hidle, hinked, hmark⟩ := idle_of_identifier h c hc
      refine ⟨hidle, hinked, fun hcomma => hmark ?_⟩
      rw [List.mem_singleton.mp hcomma]
      decide
  exact ⟨steady_of_idle (fun c hc => (hidle c hc).1) fun c hc => (hidle c hc).2.2,
    fun c hc => (hidle c hc).2.1⟩

/-- Each part of a pattern is steady. -/
theorem steady_patternParts (hplain : ∀ b ∈ bs, b.Plain)
    (hrest : ∀ name ∈ rest?, Extract.isIdentifier name = true) :
    ∀ part ∈ patternParts bs rest?, Steady [','] part := by
  intro part hpart
  rcases List.mem_append.mp hpart with hpart | hpart
  · obtain ⟨b, hb, rfl⟩ := List.mem_map.mp hpart
    exact (hplain b hb).steady_text
  · obtain ⟨name, hname, rfl⟩ := Option.map_eq_some_iff.mp (Option.mem_toList.mp hpart)
    exact (steady_rest (hrest name hname)).1

/-- Steady parts with commas between them make a text that is steady if commas do not matter. -/
theorem steady_join {parts : List (List Char)} (h : ∀ part ∈ parts, Steady [','] part) :
    Steady [] (join [',', ' '] parts) := by
  induction parts with
  | nil => exact steady_of_idle (fun c hc => by contradiction) fun c hc => by contradiction
  | cons part parts ih =>
    obtain ⟨hpart, hparts⟩ := List.forall_mem_cons.mp h
    by_cases hnil : parts = []
    · rw [hnil, join_singleton]
      exact hpart.nil_separators
    · rw [join_cons hnil]
      exact hpart.nil_separators.append_cons ((ih hparts).indented (by decide)) rfl (by decide)
        (by decide)

/-- So is what stands between the braces. -/
theorem steady_patternInner (hplain : ∀ b ∈ bs, b.Plain)
    (hrest : ∀ name ∈ rest?, Extract.isIdentifier name = true) :
    Steady [] (patternInner bs rest?) := by
  have hparts := steady_join (steady_patternParts hplain hrest)
  have hnil : Steady [] [] :=
    steady_of_idle (fun c hc => by contradiction) fun c hc => by contradiction
  exact (hparts.append_cons hnil rfl (by decide) (by decide)).indented (by decide)

/-- The parts come apart at the commas between them. -/
theorem splitTopLevel_patternInner (hplain : ∀ b ∈ bs, b.Plain)
    (hrest : ∀ name ∈ rest?, Extract.isIdentifier name = true) :
    splitTopLevel (patternInner bs rest?) [','] =
      ((patternParts bs rest?).map trim).filter (!·.isEmpty) := by
  have hsteady := steady_patternParts hplain hrest
  rw [patternInner]
  cases hparts : patternParts bs rest? with
  | nil => rfl
  | cons first others =>
    rw [hparts] at hsteady
    obtain ⟨hfirst, hothers⟩ := List.forall_mem_cons.mp hsteady
    have hjoined : ' ' :: (join [',', ' '] (first :: others) ++ [' ']) =
        ((' ' :: first) ++ (others.map fun other => (',', ' ' :: other)).flatMap
          fun other => other.1 :: other.2) ++ [' '] := by
      rw [join_eq_flatMap, List.flatMap_map]
      rfl
    have hwhole : ∀ other ∈ others.map fun other => (',', ' ' :: other),
        other.1 ∈ [','] ∧ Whole [','] other.2 := by
      intro other hother
      obtain ⟨part, hpart, rfl⟩ := List.mem_map.mp hother
      exact ⟨List.mem_singleton.mpr rfl, ((hothers part hpart).indented (by decide)).whole⟩
    have htrim (part : List Char) : trim (' ' :: part) = trim part := trim_cons_blank rfl part
    rw [hjoined, splitTopLevel_append_blank (by decide) (by decide)
      (hfirst.indented (by decide)).whole hwhole, List.map_map]
    simp only [List.map_cons, List.map_map, Function.comp_def, htrim]

/-- **Patterns.** The names that a printed pattern binds are read back, each with whether it has a
default. -/
theorem boundNames_printed (hplain : ∀ b ∈ bs, b.Plain)
    (hrest : ∀ name ∈ rest?, Extract.isIdentifier name = true) :
    Extract.boundNames (patternInner bs rest?) =
      bs.map fun b => (String.ofList b.name, b.default?.isSome) := by
  have hnothing : ∀ part : List Char,
      (if (!part.isEmpty) = true then Extract.boundName? part else none) =
        Extract.boundName? part := by
    intro part
    cases part with
    | nil => decide +kernel
    | cons c part => rfl
  have hname : ∀ b ∈ bs, Extract.boundName? (trim b.text) =
      some (String.ofList b.name, b.default?.isSome) := fun b hb => (hplain b hb).boundName?_text
  -- The rest of the props is no binding: dots are not read as a name.
  have hothers : ((rest?.map ("...".toList ++ ·)).toList.map trim).filterMap Extract.boundName? =
      [] := by
    cases rest? with
    | none => rfl
    | some name =>
      have htrim : trim ("...".toList ++ name) = "...".toList ++ name :=
        trim_of_squeezed (squeeze_of_inked (steady_rest (hrest name rfl)).2)
      have hdots : Extract.boundName? ("...".toList ++ name) = none := rfl
      simp only [Option.map_some, Option.toList_some, List.map_singleton, htrim,
        List.filterMap_cons, hdots, List.filterMap_nil]
  rw [Extract.boundNames, splitTopLevel_patternInner hplain hrest, List.filterMap_filter]
  simp only [hnothing]
  rw [patternParts, List.map_append, List.filterMap_append, hothers, List.append_nil, List.map_map,
    List.filterMap_map]
  exact (List.filterMap_congr hname).trans (congrFun List.filterMap_eq_map' bs)

/-! ## Props -/

/-- The text of the parameter: a pattern and the name of its type. -/
def patternText (bs : List BindingText) (rest? : Option (List Char)) (type : List Char) :
    List Char :=
  '{' :: (patternInner bs rest? ++ ['}']) ++ ':' :: ' ' :: type

theorem steady_patternText (hplain : ∀ b ∈ bs, b.Plain)
    (hrest : ∀ name ∈ rest?, Extract.isIdentifier name = true) {type : List Char}
    (htype : Extract.isIdentifier type = true) : Steady [','] (patternText bs rest? type) := by
  have hpattern := (steady_patternInner hplain hrest).braced (by decide : '{' ∉ [','] ∧ '}' ∉ [','])
  exact hpattern.append_cons ((steady_identifier htype).indented (by decide)) rfl (by decide)
    (by decide)

/-- Nothing is trimmed off a text that begins with a sign and ends with an identifier. -/
theorem trim_append_identifier {c : Char} (hc : isSpace c = false) (front : List Char)
    {type : List Char} (htype : Extract.isIdentifier type = true) :
    trim (c :: (front ++ type)) = c :: (front ++ type) := by
  have hne : type ≠ [] := (mem_of_isIdentifier htype).1
  have hlast : (c :: (front ++ type)).getLast? = some (type.getLast hne) := by
    rw [← List.cons_append, List.getLast?_append_of_ne_nil _ hne, List.getLast?_eq_some_getLast hne]
  have hstart : ∀ d, (c :: (front ++ type)).head? = some d → isSpace d = false :=
    fun d hd => Option.some.inj hd ▸ hc
  rw [trim_of_inked_start hstart,
    trimEnd_of_inked hlast (idle_of_identifier htype _ (List.getLast_mem hne)).2.1]

/-- The braces of the pattern are what is read of it, and the type is what is left. -/
theorem parts_patternText (hplain : ∀ b ∈ bs, b.Plain)
    (hrest : ∀ name ∈ rest?, Extract.isIdentifier name = true) (type : List Char) :
    let text := patternText bs rest? type
    let close := 1 + (patternInner bs rest?).length
    closing? text 0 (text.length + 1) = some close ∧
      between text 1 close = patternInner bs rest? ∧
      text.drop (close + 1) = ':' :: ' ' :: type := by
  intro text close
  have hinner := steady_patternInner hplain hrest
  refine ⟨?_, ?_, ?_⟩
  · have hceiling : ((patternInner bs rest?).length : Int) + 2 ≤ text.length + 1 := by
      simp only [text, patternText, List.length_append, List.length_cons, List.length_nil]
      omega
    have hclosing := closing?_balanced (rfl : closer? '{' = some '}') [] (':' :: ' ' :: type)
      hinner.braces hinner.quotes hceiling
    rw [List.length_nil, Nat.zero_add] at hclosing
    exact hclosing
  · have hmiddle := between_append ['{'] (patternInner bs rest?) ('}' :: ':' :: ' ' :: type)
    simpa [text, patternText] using hmiddle
  · have hlength : ('{' :: (patternInner bs rest? ++ ['}'])).length = close + 1 := by
      simp [close, Nat.add_comm 1]
    exact List.drop_left' hlength

/-- **Destructured props.** The props of a printed pattern are those that its type declares under
these names; another name is a prop without a type. -/
theorem props_pattern (limits : Extract.Limits) (types : Extract.DeclaredTypes)
    (annotated : Option (List Char)) (hplain : ∀ b ∈ bs, b.Plain)
    (hrest : ∀ name ∈ rest?, Extract.isIdentifier name = true) {type : List Char}
    (htype : Extract.isIdentifier type = true) :
    Extract.props limits types (patternText bs rest? type) annotated =
      Extract.namedProps (Extract.declaredProps limits types type)
        (bs.map fun b => (String.ofList b.name, b.default?.isSome)) := by
  obtain ⟨hclosing, hbetween, hdrop⟩ := parts_patternText hplain hrest type
  -- No comma stands outside the braces of a pattern, so it is one parameter.
  have hsplit : splitTopLevel (patternText bs rest? type) [','] = [patternText bs rest? type] := by
    obtain ⟨last, hreach⟩ := (steady_patternText hplain hrest htype).whole
    have htext : patternText bs rest? type =
        '{' :: ((patternInner bs rest? ++ ['}', ':', ' ']) ++ type) := by simp [patternText]
    have htrim : trim (patternText bs rest? type) = patternText bs rest? type := by
      rw [htext]
      exact trim_append_identifier (by decide) _ htype
    exact splitTopLevel_of_reach (by decide) hreach htrim (List.cons_ne_nil _ _)
  have hhead : ((patternText bs rest? type).head? == some '{') = true := rfl
  have hbehind : trim (':' :: ' ' :: type) = ':' :: ' ' :: type :=
    trim_append_identifier (by decide) [' '] htype
  have hcolon : ((':' :: ' ' :: type).head? == some ':') = true := rfl
  have hnamed : trim (' ' :: type) = type :=
    (trim_cons_blank rfl type).trans (trim_identifier htype)
  have hne : type.isEmpty = false := List.isEmpty_eq_false_iff.mpr (mem_of_isIdentifier htype).1
  rw [Extract.props, hsplit]
  simp only [hhead, hclosing, hdrop, hbehind, hcolon, hbetween, boundNames_printed hplain hrest,
    if_true, List.drop_one, List.tail_cons, hnamed, hne, Bool.false_eq_true, if_false]

end CodeSurvey.Source
