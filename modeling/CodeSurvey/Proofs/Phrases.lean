import CodeSurvey.Proofs.CharSets
import CodeSurvey.Proofs.PlainDeclaration
import CodeSurvey.Proofs.Squeezing
import CodeSurvey.Proofs.TopLevelSearch

/-!
# Phrases

A phrase is what stands between the names and marks of a printed list: a type or a default without
literals and comments, whose brackets close and whose separators stand in brackets. Since a phrase
starts and ends outside brackets, scans pass over it as over a single character. Phrases are set one
blank apart, so that no two of them make a comment or an arrow together.

- `Closed`, `Phrase`, `Arrows`: what a phrase is, stated on the nesting of its places.
- `Whole`, `Item`, `Phrase.item_join`: phrases with blanks between them are read as one piece.
- `splitTopLevel_items`: items with separators between them come apart again.
- `Skims`, `skims_of_closed`: a search for an assignment passes over closed texts whose equals signs
  are parts of arrows.
- `findTopLevel?_plain`: a separator behind a text without brackets is found.
-/

namespace CodeSurvey.Source

open Text Reading Pattern

/-! ## Closed texts -/

/-- The brackets of a text close as they open: nowhere have more closed than opened, and in the end
as many. Angle brackets count, but not the one that ends an arrow. -/
structure Closed (text : List Char) : Prop where
  ends : nesting text text.length = 0
  starts : ∀ place ≤ text.length, 0 ≤ nesting text place

instance (text : List Char) : Decidable (Closed text) :=
  decidable_of_iff
    (nesting text text.length = 0 ∧ ∀ place ≤ text.length, 0 ≤ nesting text place)
    ⟨fun h => ⟨h.1, h.2⟩, fun h => ⟨h.ends, h.starts⟩⟩

/-- A text that keeps its place in a list: it is squeezed and not empty, it holds neither quotes nor
comments, its brackets close, and separators stand in brackets only. -/
structure Phrase (separators text : List Char) : Prop where
  inked : text ≠ []
  squeezed : squeeze text = text
  quotes : ∀ c ∈ text, isQuote c = false
  uncommented : Uncommented text
  closed : Closed text
  enclosed : ∀ place, ∀ c ∈ separators, text[place]? = some c → Enclosed text place

theorem any_isQuote_iff {text : List Char} :
    text.any isQuote = false ↔ ∀ c ∈ text, isQuote c = false := by
  simp [List.any_eq_false]

/-- What a phrase is can be seen by looking at its characters one by one. -/
theorem phrase_iff {separators text : List Char} : Phrase separators text ↔
    (text ≠ [] ∧ squeeze text = text ∧ text.any isQuote = false) ∧ Uncommented text ∧ Closed text ∧
      ∀ place < text.length, text[place]?.any separators.contains = true → Enclosed text place := by
  constructor
  · intro h
    have hquotes := any_isQuote_iff.mpr h.quotes
    refine ⟨⟨h.inked, h.squeezed, hquotes⟩, h.uncommented, h.closed, fun place hplace hany => ?_⟩
    have hget := List.getElem?_eq_getElem hplace
    rw [hget, Option.any_some] at hany
    exact h.enclosed place _ (List.contains_iff_mem.mp hany) hget
  · rintro ⟨⟨hinked, hsqueezed, hquotes⟩, huncommented, hclosed, henclosed⟩
    refine ⟨hinked, hsqueezed, any_isQuote_iff.mp hquotes, huncommented, hclosed, ?_⟩
    intro place c hc hget
    apply henclosed place (List.getElem?_eq_some_iff.mp hget).1
    rw [hget, Option.any_some]
    exact List.contains_iff_mem.mpr hc

instance (separators text : List Char) : Decidable (Phrase separators text) :=
  decidable_of_iff _ phrase_iff.symm

/-- Every equals sign of a text is part of an arrow. -/
def Arrows (text : List Char) : Prop :=
  ∀ place, text[place]? = some '=' → text[place + 1]? = some '>'

instance (text : List Char) : Decidable (Arrows text) :=
  decidable_of_iff
    (∀ place < text.length, text[place]? = some '=' → text[place + 1]? = some '>')
    ⟨fun h place hget => h place (List.getElem?_eq_some_iff.mp hget).1 hget,
      fun h place _ => h place⟩

section

variable {separators text name front back : List Char} {c : Char}

/-- A text without quotes ends outside literals. -/
theorem codeText_of_quotes (h : ∀ c ∈ text, isQuote c = false) : CodeText text := by
  induction text with
  | nil => exact .empty
  | cons c text ih =>
    obtain ⟨hc, htext⟩ := List.forall_mem_cons.mp h
    exact .plain hc (ih htext)

/-- All of its places stand outside literals. -/
theorem codeAt_of_quotes (h : ∀ c ∈ text, isQuote c = false) (place : Nat) : CodeAt text 0 place :=
  codeAt_zero_iff.mpr (codeText_of_quotes fun c hc => h c (List.mem_of_mem_take hc))

/-- Without brackets nothing is nested. -/
theorem nesting_of_brackets (h : ∀ c ∈ text, isTypeBracket c = false) (place : Nat) :
    nesting text place = 0 := by
  have hstands (sort : Char → Bool) (hsort : ∀ c, isTypeBracket c = false → sort c = false)
      (place : Nat) : standsAt text sort place = false := by
    rw [standsAt]
    cases hget : text[place]? with
    | none => rfl
    | some c => exact hsort c (h c (List.mem_of_getElem? hget))
  have hopener (place : Nat) : standsAt text isTypeOpener place = false :=
    hstands _ (fun c hc => (isTypeBracket_plain hc none).1) place
  have hcloses (place : Nat) : closesAt text place = false := by
    have hcloser := hstands isCloser (fun c hc => by simp_all [isTypeBracket]) place
    have hangle := hstands (· == '>') (fun c hc => by simp_all [isTypeBracket]) place
    rw [closesAt, hcloser, hangle]
    rfl
  -- At each place the nesting stays, in code since nothing opens or closes, in literals anyway.
  induction place with
  | zero => exact nesting_zero
  | succ place ih =>
    by_cases hcode : CodeAt text 0 place
    · rw [nesting_succ hcode, ih, hopener, hcloses]
      rfl
    · rw [nesting_succ_of_literal hcode, ih]

/-- A text without brackets is closed. -/
theorem closed_of_brackets (h : ∀ c ∈ text, isTypeBracket c = false) : Closed text where
  ends := nesting_of_brackets h _
  starts place _ := (nesting_of_brackets h place).ge

/-- A text without slashes is free of comments. -/
theorem uncommented_of_slash (h : '/' ∉ text) : Uncommented text := by
  have hmark (mark : Char) : ¬ ['/', mark] <:+: text := by
    intro hpart
    exact h (hpart.subset List.mem_cons_self)
  exact ⟨hmark '/', hmark '*'⟩

/-- A text without equals signs has no others than those of arrows. -/
theorem arrows_of_equals (h : '=' ∉ text) : Arrows text :=
  fun _ hget => absurd (List.mem_of_getElem? hget) h

/-- An arrow is not cut off at the end of the text. -/
theorem Arrows.getLast?_ne (h : Arrows text) : text.getLast? ≠ some '=' := by
  intro hlast
  rw [List.getLast?_eq_getElem?] at hlast
  obtain ⟨hplace, -⟩ := List.getElem?_eq_some_iff.mp hlast
  have hbehind := (List.getElem?_eq_some_iff.mp (h _ hlast)).1
  omega

/-- The characters of names and marks in a list: none of them is a blank, a quote, a bracket or a
part of a comment's mark. -/
def isPlain (c : Char) : Bool :=
  !isSpace c && !isQuote c && !isTypeBracket c && c != '/'

theorem isSpace_of_isPlain (h : isPlain c = true) : isSpace c = false := by
  simp only [isPlain, Bool.and_eq_true, Bool.not_eq_true'] at h
  exact h.1.1.1

/-- Names and marks are phrases. -/
theorem phrase_of_plain (hinked : text ≠ []) (hplain : ∀ c ∈ text, isPlain c = true)
    (hseparators : ∀ c ∈ text, c ∉ separators) : Phrase separators text := by
  have hparts (c : Char) (hc : c ∈ text) : (isSpace c = false ∧ isQuote c = false) ∧
      isTypeBracket c = false ∧ c ≠ '/' := by
    have h := hplain c hc
    simp only [isPlain, Bool.and_eq_true, Bool.not_eq_true', bne_iff_ne] at h
    exact ⟨h.1.1, h.1.2, h.2⟩
  exact {
    inked := hinked
    squeezed := squeeze_of_inked fun c hc => (hparts c hc).1.1
    quotes := fun c hc => (hparts c hc).1.2
    uncommented := uncommented_of_slash fun hslash => (hparts '/' hslash).2.2 rfl
    closed := closed_of_brackets fun c hc => (hparts c hc).2.1
    enclosed := fun _ c hc hget => absurd hc (hseparators c (List.mem_of_getElem? hget)) }

/-! ## Names -/

/-- The marks of a list: each of them ends a name. -/
def listMarks : List Char :=
  [',', ';', ':', '=', '?', '@']

/-- Whether a text is a name: no character of it parts the names, marks, types and defaults of a
list. -/
def isName (text : List Char) : Bool :=
  !text.isEmpty && text.all fun c => isPlain c && !listMarks.contains c

theorem isName_iff : isName name = true ↔
    name ≠ [] ∧ ∀ c ∈ name, isPlain c = true ∧ c ∉ listMarks := by
  simp [isName]

/-- Nothing in a name is blank. -/
theorem isSpace_of_isName (h : isName name = true) : ∀ c ∈ name, isSpace c = false :=
  fun c hc => isSpace_of_isPlain ((isName_iff.mp h).2 c hc).1

/-- Nothing that may stand in an identifier has a meaning in a list. -/
theorem isPlain_of_identifierRest (h : identifierRest.mem c = true) :
    isPlain c = true ∧ c ∉ listMarks := by
  let others := ['\'', '"', '\x60', '(', '[', '{', ')', ']', '}', '<', '>', '/'] ++ listMarks
  have hmarks : others.any identifierRest.mem = false := by decide +kernel
  have hother : ∀ mark ∈ others, c ≠ mark := by
    rintro mark hmark rfl
    rw [Extract.eq_false_of_any hmarks c hmark] at h
    contradiction
  -- A blank is no word character in any script, and it is not the dollar sign.
  have hinked : isSpace c = false := by
    by_contra hblank
    rw [Bool.not_eq_false] at hblank
    have hdollar : '$' ≠ c := by
      rintro rfl
      exact absurd hblank (by decide)
    simp [identifierRest, CharSet.mem, isWord_of_isSpace hblank, hdollar] at h
  simp only [others, listMarks, List.cons_append, List.nil_append, List.forall_mem_cons] at hother
  simp [isPlain, listMarks, hinked, isQuote, isTypeBracket, isTypeOpener, isOpener, isCloser, hother]

/-- No character of an identifier is out of place in it. -/
theorem mem_of_isIdentifier (h : Extract.isIdentifier name = true) :
    name ≠ [] ∧ ∀ c ∈ name, identifierRest.mem c = true := by
  cases name with
  | nil => contradiction
  | cons c rest =>
    simp only [Extract.isIdentifier, Bool.and_eq_true, List.all_eq_true] at h
    have hstarts : identifierStart.within identifierRest = true := by decide +kernel
    exact ⟨List.cons_ne_nil c rest,
      List.forall_mem_cons.mpr ⟨CharSet.mem_of_within hstarts h.1, h.2⟩⟩

/-- Identifiers are names. -/
theorem isName_of_isIdentifier (h : Extract.isIdentifier name = true) : isName name = true := by
  obtain ⟨hne, hname⟩ := mem_of_isIdentifier h
  exact isName_iff.mpr ⟨hne, fun c hc => isPlain_of_identifierRest (hname c hc)⟩

/-- A name with marks behind it is a phrase, if names hold none of the separators. -/
theorem phrase_of_name {marks : List Char} (hname : isName name = true)
    (hmarks : (marks.all fun c => isPlain c && !separators.contains c) = true)
    (hseparators : (separators.all fun c => listMarks.contains c || !isPlain c) = true) :
    Phrase separators (name ++ marks) := by
  obtain ⟨hinked, hname⟩ := isName_iff.mp hname
  have hall : ∀ c ∈ name ++ marks, isPlain c = true ∧ c ∉ separators := by
    intro c hc
    rcases List.mem_append.mp hc with hc | hc
    · obtain ⟨hplain, hother⟩ := hname c hc
      refine ⟨hplain, fun hseparator => ?_⟩
      have hmark := List.all_eq_true.mp hseparators c hseparator
      rw [hplain, Bool.not_true, Bool.or_false, List.contains_iff_mem] at hmark
      exact hother hmark
    · simpa using List.all_eq_true.mp hmarks c hc
  have hne : name ++ marks ≠ [] := by simp [hinked]
  exact phrase_of_plain hne (fun c hc => (hall c hc).1) fun c hc => (hall c hc).2

/-! ## Pieces -/

/-- A text that is read as one piece and ends outside literals and brackets. -/
def Whole (separators text : List Char) : Prop :=
  ∃ previous, reach separators start text = some ⟨.code, 0, previous⟩

/-- A phrase is whole: a separator that ended the piece would be enclosed, and where the phrase ends
as many brackets have closed as opened. -/
theorem Phrase.whole (h : Phrase separators text) : Whole separators text := by
  cases hreach : reach separators start text with
  | none =>
    obtain ⟨front, c, back, there, rfl, hfront, hcomment | ⟨-, hdepth, hc⟩⟩ :=
      exists_of_reach_eq_none text hreach
    · exact absurd hcomment (h.uncommented.not_startsComment hfront)
    · have hopen : (front ++ c :: back)[front.length]? = some c := by simp
      have htake : (front ++ c :: back).take front.length = front := List.take_left
      rw [← htake] at hfront
      have hlength : front.length ≤ (front ++ c :: back).length := by simp
      exact absurd (h.enclosed front.length c hc hopen)
        ((depth_eq_zero_iff hlength hfront).mp hdepth)
  | some there =>
    have hcode := (reach_start hreach).1.mpr (codeText_of_quotes h.quotes)
    -- The depth tells how far the nesting at the end, which is none, lies above the lowest before.
    have hdepth : there.depth = 0 := by
      have hreach := hreach
      rw [← List.take_length (l := text)] at hreach
      obtain ⟨-, earlier, hearlier, hnesting⟩ := nesting_of_reach (Nat.le_refl _) hreach
      have hstart := h.closed.starts earlier hearlier
      rw [h.closed.ends] at hnesting
      omega
    refine ⟨there.previous, hreach.trans ?_⟩
    rw [← hcode, ← hdepth]

/-- What is read of a text that settles leads back to the depth around it, if brackets enclose every
separator. The induction is on the text, with the depth that is reached so far. -/
theorem reach_settles {opens closes : Char → Bool} (hapart : ∀ c, opens c = true → closes c = false)
    (base : Nat) : ∀ (depth : Nat) (previous : Option Char), (∀ c ∈ text, isQuote c = false) →
    (∀ front c back, text = front ++ c :: back →
      isTypeOpener c = opens c ∧ closesTopLevel (front.getLast?.or previous) c = closes c) →
    Uncommented (previous.toList ++ text) → Settles opens closes depth text →
    (∀ (place : Nat) (h : place < text.length), text[place] ∈ separators →
      (text.take place).countP closes < base + depth + (text.take place).countP opens) →
    ∃ last, reach separators ⟨.code, base + depth, previous⟩ text = some ⟨.code, base, last⟩ := by
  induction text with
  | nil =>
    intro depth previous _ _ _ hsettles _
    obtain rfl : depth = 0 := hsettles
    exact ⟨previous, rfl⟩
  | cons c text ih =>
    intro depth previous hquotes hbrackets huncommented hsettles hencloses
    obtain ⟨hquote, hquotes⟩ := List.forall_mem_cons.mp hquotes
    obtain ⟨hopener, hcloser⟩ := hbrackets [] c text rfl
    have hcloser : closesTopLevel previous c = closes c := hcloser
    have hcomment : ¬ StartsComment ⟨.code, base + depth, previous⟩ c := by
      rintro ⟨-, hslash, hmark⟩
      obtain rfl : previous = some '/' := hslash
      rcases hmark with rfl | rfl
      · exact huncommented.1 ⟨[], text, rfl⟩
      · exact huncommented.2 ⟨[], text, rfl⟩
    have hsplit : ¬ Splits separators ⟨.code, base + depth, previous⟩ c := by
      rintro ⟨-, hdepth, hc⟩
      have hopen := hencloses 0 (Nat.succ_pos _) hc
      have hzero : base + depth = 0 := hdepth
      rw [hzero] at hopen
      exact absurd hopen (Nat.lt_irrefl 0)
    have hbehind (place : Nat) (h : place < text.length) (hc : text[place] ∈ separators) :=
      hencloses (place + 1) (Nat.succ_lt_succ h) hc
    simp only [List.take_succ_cons, List.countP_cons] at hbehind
    have hrest : ∀ front d back, text = front ++ d :: back →
        isTypeOpener d = opens d ∧ closesTopLevel (front.getLast?.or (some c)) d = closes d := by
      intro front d back htext
      have hboth := hbrackets (c :: front) d back (congrArg (c :: ·) htext)
      have hlast : (c :: front).getLast?.or previous = front.getLast?.or (some c) := by
        cases h : front.getLast? <;> simp [List.getLast?_cons, h]
      rwa [hlast] at hboth
    have hnext {depth' : Nat} (h : Settles opens closes depth' text)
        (hread : Reading.next ⟨.code, base + depth, previous⟩ c = ⟨.code, base + depth', some c⟩)
        (hdepth : depth' + (if closes c then 1 else 0) = depth + if opens c then 1 else 0) :
        ∃ last, reach separators ⟨.code, base + depth, previous⟩ (c :: text) =
          some ⟨.code, base, last⟩ := by
      obtain ⟨last, hlast⟩ := ih depth' (some c) hquotes hrest huncommented.of_append h
        fun place hplace hc => by
          have hcount := hbehind place hplace hc
          omega
      exact ⟨last, reach_cons_eq_some_iff.mpr ⟨hcomment, hsplit, hread ▸ hlast⟩⟩
    rcases settles_cons.mp hsettles with ⟨ho, h⟩ | ⟨ho, hc, outer, rfl, h⟩ | ⟨ho, hc, h⟩
    · refine hnext h ?_ (by simp [ho, hapart c ho])
      simp [Reading.next, depthAfter, Literal.step, hquote, hopener, ho, Nat.add_assoc]
    · refine hnext h ?_ (by simp [ho, hc])
      simp [Reading.next, depthAfter, Literal.step, hquote, hopener, hcloser, ho, hc,
        ← Nat.add_assoc]
    · refine hnext h ?_ (by simp [ho, hc])
      simp [Reading.next, depthAfter, Literal.step, hquote, hopener, hcloser, ho, hc]

/-- A blank is no mark of any kind. -/
theorem isQuote_of_isSpace (h : isSpace c = true) :
    isQuote c = false ∧ isTypeBracket c = false ∧ c ≠ '/' ∧ c ≠ '*' := by
  let marks := ['\'', '"', '\x60', '(', '[', '{', ')', ']', '}', '<', '>', '/', '*']
  have hother : ∀ mark ∈ marks, c ≠ mark := by
    have hinked : ∀ mark ∈ marks, isSpace mark = false := by decide
    rintro mark hmark rfl
    rw [hinked c hmark] at h
    contradiction
  simp only [marks, List.forall_mem_cons] at hother
  simp [isQuote, isTypeBracket, isTypeOpener, isOpener, isCloser, hother]

/-- Behind a blank a text is read as at the start of a piece. -/
theorem Whole.behind_blank (hspace : isSpace c = true) (hblank : c ∉ separators)
    (h : Whole separators text) (previous : Option Char) :
    ∃ last, reach separators ⟨.code, 0, previous⟩ (c :: text) = some ⟨.code, 0, last⟩ := by
  obtain ⟨last, hreach⟩ := h
  obtain ⟨hquote, hbracket, hslash, hstar⟩ := isQuote_of_isSpace hspace
  obtain ⟨hopener, hcloser⟩ := isTypeBracket_plain hbracket previous
  -- The blank is an end to what stands before: no comment and no arrow reaches across it.
  have hfirst : reach separators ⟨.code, 0, previous⟩ (c :: text) =
      reach separators ⟨.code, 0, some c⟩ text := by
    have hcomment : ¬ StartsComment ⟨.code, 0, previous⟩ c := by
      rintro ⟨-, -, hmark | hmark⟩ <;> contradiction
    have hsplit : ¬ Splits separators ⟨.code, 0, previous⟩ c := fun h => hblank h.2.2
    have hnext : step separators ⟨.code, 0, previous⟩ c = some ⟨.code, 0, some c⟩ :=
      step_eq_some_iff.mpr ⟨hcomment, hsplit, by
        simp [Reading.next, depthAfter, Literal.step, hquote, hopener, hcloser]⟩
    rw [reach_cons, hnext, Option.bind_some]
  rw [hfirst]
  cases text with
  | nil => exact ⟨_, rfl⟩
  | cons d text =>
    rw [reach_cons] at hreach
    rw [reach_cons, step_start (by simpa using hslash), hreach]
    exact ⟨last, rfl⟩

/-- Whole texts with a blank between them make a whole text. -/
theorem Whole.append_blank (hblank : ' ' ∉ separators) (hfront : Whole separators front)
    (hback : Whole separators back) : Whole separators (front ++ ' ' :: back) := by
  obtain ⟨previous, hfront⟩ := hfront
  obtain ⟨last, hback⟩ := hback.behind_blank rfl hblank previous
  refine ⟨last, ?_⟩
  rw [reach_append, hfront, Option.bind_some, hback]

/-- A blank in front of a whole text leaves it whole. -/
theorem Whole.cons_blank (hspace : isSpace c = true) (hblank : c ∉ separators)
    (h : Whole separators text) : Whole separators (c :: text) :=
  h.behind_blank hspace hblank none

/-- Phrases with blanks between them are read as one piece. -/
theorem Phrase.whole_join {parts : List (List Char)} (hblank : ' ' ∉ separators)
    (h : ∀ part ∈ parts, Phrase separators part) : Whole separators (join [' '] parts) := by
  induction parts with
  | nil => exact ⟨none, rfl⟩
  | cons part parts ih =>
    obtain ⟨hpart, hothers⟩ := List.forall_mem_cons.mp h
    by_cases hrest : parts = []
    · rw [hrest, join_singleton]
      exact hpart.whole
    · rw [join_cons hrest]
      exact hpart.whole.append_blank hblank (ih hothers)

/-- An item of a list: a squeezed text that is read as one piece. -/
structure Item (separators text : List Char) : Prop where
  inked : text ≠ []
  squeezed : squeeze text = text
  whole : Whole separators text

/-- **Phrases.** Phrases with blanks between them make an item. -/
theorem Phrase.item_join {parts : List (List Char)} (hblank : ' ' ∉ separators) (hne : parts ≠ [])
    (h : ∀ part ∈ parts, Phrase separators part) : Item separators (join [' '] parts) where
  inked := join_ne_nil hne fun part hpart => (h part hpart).inked
  squeezed := squeeze_join fun part hpart => ⟨(h part hpart).squeezed, (h part hpart).inked⟩
  whole := Phrase.whole_join hblank h

/-- Blanks in front of an item are trimmed away. -/
theorem Item.trim_indented (h : Item separators text) {blanks : List Char}
    (hblanks : ∀ c ∈ blanks, isSpace c = true) : trim (blanks ++ text) = text := by
  rw [trim_append_blanks hblanks, trim_of_squeezed h.squeezed]

/-- With blanks in front of it an item is still read as one piece. -/
theorem Item.whole_indented (h : Item separators text) {blanks : List Char}
    (hblanks : ∀ c ∈ blanks, isSpace c = true ∧ c ∉ separators) :
    Whole separators (blanks ++ text) := by
  induction blanks with
  | nil => exact h.whole
  | cons c blanks ih =>
    obtain ⟨⟨hspace, hblank⟩, hblanks⟩ := List.forall_mem_cons.mp hblanks
    exact (ih hblanks).cons_blank hspace hblank

/-! ## Lists -/

/-- Whole chunks with a separator before each but the first one are the pieces of their list. -/
theorem pieces_list (hseparators : ∀ c ∈ separators, isSeparator c)
    {others : List (Char × List Char)} {first : List Char} (hfirst : Whole separators first)
    (hothers : ∀ other ∈ others, other.1 ∈ separators ∧ Whole separators other.2) :
    pieces separators (.source .code) none 0 []
        (first ++ others.flatMap fun other => other.1 :: other.2) =
      first :: others.map (·.2) := by
  induction others generalizing first with
  | nil =>
    obtain ⟨previous, hreach⟩ := hfirst
    rw [List.flatMap_nil, List.append_nil, pieces_of_reach hseparators hreach]
    rfl
  | cons other others ih =>
    obtain ⟨⟨hc, hnext⟩, hothers⟩ := List.forall_mem_cons.mp hothers
    obtain ⟨previous, hreach⟩ := hfirst
    -- Behind the first chunk the scan stands at depth zero, so the separator ends the piece.
    rw [List.flatMap_cons, List.cons_append, pieces_reach_separator hseparators hreach hc,
      pieces_previous hseparators, ih hnext hothers]
    rfl

/-- **Lists.** Items come apart again, where each but the first one stands behind a separator and as
many blanks as there may be. -/
theorem splitTopLevel_items (hseparators : ∀ c ∈ separators, isSeparator c)
    (hblank : ' ' ∉ separators) (n : Nat) {others : List (Char × List Char)} {first : List Char}
    (hfirst : Item separators first)
    (hothers : ∀ other ∈ others, other.1 ∈ separators ∧ Item separators other.2) :
    splitTopLevel
        (first ++ others.flatMap fun other => other.1 :: (List.replicate n ' ' ++ other.2))
        separators =
      first :: others.map (·.2) := by
  let chunks := others.map fun other => (other.1, List.replicate n ' ' ++ other.2)
  have hchunks : (others.flatMap fun other => other.1 :: (List.replicate n ' ' ++ other.2)) =
      chunks.flatMap fun chunk => chunk.1 :: chunk.2 := by
    rw [List.flatMap_map]
  have hwhole : ∀ chunk ∈ chunks, chunk.1 ∈ separators ∧ Whole separators chunk.2 := by
    intro chunk hchunk
    obtain ⟨other, hother, rfl⟩ := List.mem_map.mp hchunk
    obtain ⟨hc, hitem⟩ := hothers other hother
    refine ⟨hc, hitem.whole_indented fun c hmem => ?_⟩
    rw [List.eq_of_mem_replicate hmem]
    exact ⟨rfl, hblank⟩
  have htrim : (first :: chunks.map (·.2)).map trim = first :: others.map (·.2) := by
    rw [List.map_cons, trim_of_squeezed hfirst.squeezed, List.map_map, List.map_map]
    refine congrArg _ (List.map_congr_left fun other hother => ?_)
    refine (hothers other hother).2.trim_indented fun c hmem => ?_
    rw [List.eq_of_mem_replicate hmem]
    rfl
  have hinked : ∀ chunk ∈ first :: others.map (·.2), (!chunk.isEmpty) = true := by
    intro chunk hchunk
    rw [Bool.not_eq_true', List.isEmpty_eq_false_iff]
    rcases List.mem_cons.mp hchunk with rfl | hchunk
    · exact hfirst.inked
    · obtain ⟨other, hother, rfl⟩ := List.mem_map.mp hchunk
      exact (hothers other hother).2.inked
  rw [splitTopLevel, hchunks, pieces_list hseparators hfirst.whole hwhole, htrim]
  exact List.filter_eq_self.mpr hinked

/-! ## Searching -/

/-- A search for an assignment passes over the text outside brackets, unless an equals sign stands
before it. -/
def Skims (text : List Char) : Prop :=
  ∀ (previous : Option Char) (rest : List Char), previous ≠ some '=' →
    topLevelAhead? '=' none 0 previous (text ++ rest) =
      (topLevelAhead? '=' none 0 (text.getLast?.or previous) rest).map (· + text.length)

/-- What stands before the text makes no difference to the depth if it is no equals sign. -/
theorem typeDepth_or {previous : Option Char} (h : previous ≠ some '=') (last : Option Char)
    (depth : Int) (c : Char) : typeDepth (last.or previous) depth c = typeDepth last depth c := by
  cases last with
  | none => simp [typeDepth, h]
  | some d => rfl

/-- Along a text without quotes a search for an assignment goes on with the nesting of each place,
if equals signs are parts of arrows. The induction is on what is still ahead. -/
theorem topLevelAhead?_along (hquotes : ∀ c ∈ text, isQuote c = false) (harrows : Arrows text)
    {previous : Option Char} (hprevious : previous ≠ some '=') (rest back : List Char) :
    ∀ front : List Char, text = front ++ back →
      topLevelAhead? '=' none (nesting text front.length) (front.getLast?.or previous)
          (back ++ rest) =
        (topLevelAhead? '=' none (nesting text text.length) (text.getLast?.or previous) rest).map
          (· + back.length) := by
  induction back with
  | nil =>
    rintro front rfl
    rw [List.append_nil]
    exact Option.map_id'.symm
  | cons c back ih =>
    intro front htext
    have hplace : front.length < text.length := by simp [htext]
    have hget : text[front.length] = c := by simp [htext]
    have htake : text.take front.length = front := by simp [htext]
    have hstep : Literal.code.step c = .code := by
      simp [Literal.step, hquotes c (by simp [htext])]
    -- The search would stop at an equals sign, but this one is followed by the end of an arrow.
    have hgoes : ¬ (c = '=' ∧ nesting text front.length ≤ 0 ∧
        (c = '=' → assigns (front.getLast?.or previous) (back ++ rest).head?)) := by
      rintro ⟨hequals, -, hassigns⟩
      have hbehind := harrows front.length (by simp [htext, hequals])
      have hhead : (back ++ rest).head? = some '>' := by
        cases back with
        | nil => simp [htext] at hbehind
        | cons d back => simpa [htext, List.getElem?_append_right] using hbehind
      rw [hhead] at hassigns
      exact absurd (hassigns hequals) (by simp [assigns])
    have hdepth := typeDepth_eq_nesting hplace (codeAt_of_quotes hquotes front.length)
    rw [htake, hget, ← typeDepth_or hprevious] at hdepth
    have hlast : (front ++ [c]).getLast?.or previous = some c := by simp
    have hnext := ih (front ++ [c]) (by simp [htext])
    rw [List.length_append, List.length_singleton, hlast] at hnext
    rw [List.cons_append, topLevelAhead?_code hgoes, hstep, hdepth, Literal.quote?, hnext,
      Option.map_map]
    rfl

/-- **Assignments.** A search for an assignment passes over a closed text whose equals signs are
parts of arrows. -/
theorem skims_of_closed (hquotes : ∀ c ∈ text, isQuote c = false) (hclosed : Closed text)
    (harrows : Arrows text) : Skims text := by
  intro previous rest hprevious
  have halong := topLevelAhead?_along hquotes harrows hprevious rest text [] rfl
  rw [List.length_nil, nesting_zero, hclosed.ends] at halong
  exact halong

theorem Phrase.skims (h : Phrase separators text) (harrows : Arrows text) : Skims text :=
  skims_of_closed h.quotes h.closed harrows

/-- A search that passes over two texts passes over both together. -/
theorem Skims.append (hfront : Skims front) (hlast : front.getLast? ≠ some '=')
    (hback : Skims back) : Skims (front ++ back) := by
  intro previous rest hprevious
  have hbetween : front.getLast?.or previous ≠ some '=' := by
    cases hget : front.getLast? with
    | none => exact hprevious
    | some c => rwa [hget] at hlast
  rw [List.append_assoc, hfront _ _ hprevious, hback _ _ hbetween, Option.map_map,
    List.getLast?_append, Option.or_assoc, List.length_append]
  congr 1
  funext ahead
  simp only [Function.comp_apply]
  omega

/-- A search for a separator finds it behind a text without quotes and brackets. -/
theorem findTopLevel?_plain (hc : isSeparator c) (hplain : ∀ d ∈ front, isPlain d = true)
    (hother : c ∉ front) (back : List Char) :
    findTopLevel? (front ++ c :: back) c = some front.length := by
  suffices h : ∀ previous : Option Char,
      topLevelAhead? c none 0 previous (front ++ c :: back) = some front.length from h none
  induction front with
  | nil =>
    intro previous
    exact (topLevelAhead?_eq_zero_iff hc).mpr ⟨rfl, Int.le_refl 0, rfl⟩
  | cons d front ih =>
    obtain ⟨hd, hfront⟩ := List.forall_mem_cons.mp hplain
    obtain ⟨hdc, hother⟩ := not_or.mp (mt List.mem_cons.mpr hother)
    simp only [isPlain, Bool.and_eq_true, Bool.not_eq_true'] at hd
    have hstep : Literal.code.step d = .code := by simp [Literal.step, hd]
    intro previous
    rw [List.cons_append, topLevelAhead?_code fun h => hdc h.1.symm, hstep,
      typeDepth_plain hd.1.2, Literal.quote?, ih hfront hother, Option.map_some, List.length_cons]

/-- What a search finds stands there. -/
theorem getElem?_of_topLevelAhead? (target : Char) (text : List Char) :
    ∀ {quote? : Option Char} {depth : Int} {previous : Option Char} {place : Nat},
      topLevelAhead? target quote? depth previous text = some place →
        text[place]? = some target := by
  induction text with
  | nil =>
    intro quote? depth previous place h
    rw [topLevelAhead?] at h
    contradiction
  | cons c rest ih =>
    intro quote? depth previous place h
    have hlater {quote? : Option Char} {depth : Int}
        (h : (topLevelAhead? target quote? depth (some c) rest).map (· + 1) = some place) :
        (c :: rest)[place]? = some target := by
      obtain ⟨ahead, hahead, rfl⟩ := Option.map_eq_some_iff.mp h
      rw [List.getElem?_cons_succ]
      exact ih hahead
    cases quote? with
    | some quote => exact hlater h
    | none =>
      rw [topLevelAhead?] at h
      split at h
      · exact hlater h
      · split at h
        · exact hlater h
        · split at h
          · rename_i hstops
            obtain rfl := Option.some.inj h
            simp only [Bool.and_eq_true, beq_iff_eq] at hstops
            rw [List.getElem?_cons_zero, hstops.1.1]
          · exact hlater h

/-- What does not stand in a text is not found there. -/
theorem findTopLevel?_eq_none (h : c ∉ text) : findTopLevel? text c = none := by
  cases hfound : findTopLevel? text c with
  | none => rfl
  | some place => exact absurd (List.mem_of_getElem? (getElem?_of_topLevelAhead? c text hfound)) h

end

end CodeSurvey.Source
