import CodeSurvey.Proofs.Balance
import CodeSurvey.Proofs.CodePlaces
import CodeSurvey.Proofs.Comments

/-!
# Reading a piece

A list is split where a scan meets a separator outside literals and brackets. Between two splits the
scan keeps three things of what it has read: how it stands to literals, how many brackets are open
and which character came last. A text that is read without a split and without a comment is a piece.

- `Reading`: what is kept; `Reading.reach`: what is kept of a text that is part of one piece.
- `pieces_cons`, `pieces_reach`: how the pieces of a text follow from this.
- `nesting`: how many more brackets have opened before a place than have closed.
- `depth_eq_zero_iff`: brackets are open in a reading exactly at the places that brackets enclose.
-/

namespace CodeSurvey.Source

open Text

/-- The characters at which lists are split. -/
def isSeparator (c : Char) : Bool :=
  c == ',' || c == ';' || c == ':' || c == '\n'

/-- Whether brackets, angle brackets included, open or close at a character. -/
def isTypeBracket (c : Char) : Bool :=
  isTypeOpener c || isCloser c || c == '>'

/-- What is no bracket neither opens nor closes anything, whatever stands before. -/
theorem isTypeBracket_plain {c : Char} (h : isTypeBracket c = false) (previous : Option Char) :
    isTypeOpener c = false ∧ closesTopLevel previous c = false := by
  simp only [isTypeBracket, Bool.or_eq_false_iff] at h
  obtain ⟨⟨hopener, hcloser⟩, hangle⟩ := h
  exact ⟨hopener, by simp [closesTopLevel, hcloser, hangle]⟩

/-- Quotes are no brackets. -/
theorem isTypeBracket_of_isQuote {c : Char} (h : isQuote c) : isTypeBracket c = false := by
  simp only [isQuote, Bool.or_eq_true, beq_iff_eq] at h
  rcases h with (rfl | rfl) | rfl <;> rfl

/-- Separators are no quotes, no brackets and no part of a comment's mark or of an arrow. -/
theorem isSeparator_plain {c : Char} (h : isSeparator c) :
    (c ≠ '/' ∧ c ≠ '*' ∧ c ≠ '=') ∧ isQuote c = false ∧ isTypeBracket c = false := by
  simp only [isSeparator, Bool.or_eq_true, beq_iff_eq] at h
  rcases h with ((rfl | rfl) | rfl) | rfl <;> decide

/-! ## Readings -/

/-- Where a splitting scan stands in a piece: how it stands to literals, how many brackets are open
and which character it has read last. -/
structure Reading where
  lit : Literal
  depth : Nat
  previous : Option Char

namespace Reading

/-- Where a scan stands at the start of a piece. -/
def start : Reading := ⟨.code, 0, none⟩

/-- How many brackets are open behind one more character. -/
def depthAfter (here : Reading) (c : Char) : Nat :=
  if here.lit = .code then
    if isTypeOpener c then here.depth + 1
    else if closesTopLevel here.previous c then here.depth - 1
    else here.depth
  else here.depth

/-- Where a scan stands behind one more character that it adds to a piece. -/
def next (here : Reading) (c : Char) : Reading :=
  ⟨here.lit.step c, here.depthAfter c, some c⟩

/-- Whether a text is split at a character. -/
def Splits (separators : List Char) (here : Reading) (c : Char) : Prop :=
  here.lit = .code ∧ here.depth = 0 ∧ c ∈ separators

instance (separators : List Char) (here : Reading) (c : Char) :
    Decidable (here.Splits separators c) :=
  inferInstanceAs (Decidable (_ ∧ _))

/-- Whether a character is the second one of the mark that opens a comment. -/
def StartsComment (here : Reading) (c : Char) : Prop :=
  here.lit = .code ∧ here.previous = some '/' ∧ (c = '/' ∨ c = '*')

instance (here : Reading) (c : Char) : Decidable (here.StartsComment c) :=
  inferInstanceAs (Decidable (_ ∧ _))

/-- Where a scan stands behind one more character of a piece; nowhere if the piece ends there. -/
def step (separators : List Char) (here : Reading) (c : Char) : Option Reading :=
  if here.StartsComment c ∨ here.Splits separators c then none else some (here.next c)

/-- Where a scan stands behind a text that it reads as part of one piece. -/
def reach (separators : List Char) (here : Reading) (text : List Char) : Option Reading :=
  text.foldlM (step separators) here

section

variable {separators : List Char} {here there : Reading} {c : Char}

theorem step_eq_some_iff :
    step separators here c = some there ↔
      ¬ here.StartsComment c ∧ ¬ here.Splits separators c ∧ here.next c = there := by
  rw [step, ← and_assoc, ← not_or]
  by_cases h : here.StartsComment c ∨ here.Splits separators c <;> simp [h]

theorem reach_cons (c : Char) (text : List Char) :
    reach separators here (c :: text) =
      (step separators here c).bind fun next => reach separators next text := by
  simp [reach, Option.bind_eq_bind]

theorem reach_append (text rest : List Char) :
    reach separators here (text ++ rest) =
      (reach separators here text).bind fun next => reach separators next rest := by
  simp [reach, Option.bind_eq_bind]

theorem reach_cons_eq_some_iff {text : List Char} :
    reach separators here (c :: text) = some there ↔
      ¬ here.StartsComment c ∧ ¬ here.Splits separators c ∧
        reach separators (here.next c) text = some there := by
  rw [reach_cons, Option.bind_eq_some_iff]
  constructor
  · rintro ⟨_, hstep, hrest⟩
    obtain ⟨hcomment, hsplit, rfl⟩ := step_eq_some_iff.mp hstep
    exact ⟨hcomment, hsplit, hrest⟩
  · rintro ⟨hcomment, hsplit, hrest⟩
    exact ⟨_, step_eq_some_iff.mpr ⟨hcomment, hsplit, rfl⟩, hrest⟩

/-- A scan stands to literals as if it looked for nothing else. -/
theorem lit_of_reach (text : List Char) : ∀ {here : Reading},
    reach separators here text = some there → there.lit = text.foldl Literal.step here.lit := by
  induction text with
  | nil =>
    intro here h
    obtain rfl : here = there := Option.some.inj h
    rfl
  | cons c text ih =>
    intro here h
    obtain ⟨-, -, hrest⟩ := reach_cons_eq_some_iff.mp h
    rw [ih hrest, List.foldl_cons]
    rfl

/-- A scan remembers the last character that it has read. -/
theorem previous_of_reach (text : List Char) : ∀ {here : Reading},
    reach separators here text = some there → there.previous = text.getLast?.or here.previous := by
  induction text with
  | nil =>
    intro here h
    obtain rfl : here = there := Option.some.inj h
    rfl
  | cons c text ih =>
    intro here h
    obtain ⟨-, -, hrest⟩ := reach_cons_eq_some_iff.mp h
    rw [ih hrest, List.getLast?_cons]
    cases text.getLast? <;> rfl

/-- Where a text that is read from the start of a piece ends, literals and the last character are
those of the text. -/
theorem reach_start {text : List Char} (h : reach separators start text = some there) :
    (there.lit = .code ↔ CodeText text) ∧ there.previous = text.getLast? := by
  constructor
  · rw [codeText_iff, lit_of_reach text h]
    rfl
  · rw [previous_of_reach text h]
    exact Option.or_none

/-- A text that is not read as part of one piece has a first character at which the piece ends. -/
theorem exists_of_reach_eq_none (text : List Char) : ∀ {here : Reading},
    reach separators here text = none →
      ∃ front c back there, text = front ++ c :: back ∧
        reach separators here front = some there ∧
        (there.StartsComment c ∨ there.Splits separators c) := by
  induction text with
  | nil =>
    intro here h
    contradiction
  | cons c text ih =>
    intro here h
    by_cases hends : here.StartsComment c ∨ here.Splits separators c
    · exact ⟨[], c, text, here, rfl, rfl, hends⟩
    · obtain ⟨hcomment, hsplit⟩ := not_or.mp hends
      rw [reach_cons, step_eq_some_iff.mpr ⟨hcomment, hsplit, rfl⟩, Option.bind_some] at h
      obtain ⟨front, d, back, there, rfl, hfront, hends⟩ := ih h
      exact ⟨c :: front, d, back, there, rfl,
        reach_cons_eq_some_iff.mpr ⟨hcomment, hsplit, hfront⟩, hends⟩

/-- Outside brackets it makes no difference which character stands before, unless that could be the
start of a comment. -/
theorem step_start {previous : Option Char} (h : previous ≠ some '/') :
    step separators ⟨.code, 0, previous⟩ c = step separators start c := by
  have hcomment : ¬ StartsComment ⟨.code, 0, previous⟩ c := fun hc => h hc.2.1
  have hstart : ¬ start.StartsComment c := by
    rintro ⟨-, hprevious, -⟩
    contradiction
  have hnext : next ⟨.code, 0, previous⟩ c = next start c := by
    simp [next, depthAfter, start]
  rw [step, step, hnext]
  simp only [hcomment, hstart, false_or]
  rfl

end

end Reading

open Reading

/-! ## Pieces -/

/-- Whether a text starts with the mark that opens a comment. -/
def OpensComment (text : List Char) : Prop :=
  ∃ c rest, text = '/' :: c :: rest ∧ (c = '/' ∨ c = '*')

section

variable {separators : List Char} {here there : Reading} {c : Char}

/-- Outside comments a character ends the piece that is being read or is added to it. -/
theorem pieces_cons (hseparators : ∀ c ∈ separators, isSeparator c) (here : Reading)
    {rest : List Char}
    (hcomment : ¬ (here.lit = .code ∧ OpensComment (c :: rest))) (piece : List Char) :
    pieces separators (.source here.lit) here.previous here.depth piece (c :: rest) =
      if here.Splits separators c then
        piece.reverse :: pieces separators (.source .code) (some c) 0 [] rest
      else
        pieces separators (.source (here.next c).lit) (here.next c).previous (here.next c).depth
          (c :: piece) rest := by
  obtain ⟨lit, depth, previous⟩ := here
  cases lit with
  | code =>
    have hopens (mark : Char) (hmark : mark = '/' ∨ mark = '*') (more : List Char) (hc : c = '/')
        (hrest : rest = mark :: more) : False :=
      hcomment ⟨rfl, mark, more, by rw [hc, hrest], hmark⟩
    rw [pieces.eq_7 _ _ _ _ _ _ (hopens '/' (.inl rfl)) (hopens '*' (.inr rfl))]
    by_cases hsplit : Splits separators ⟨.code, depth, previous⟩ c
    · rw [if_pos hsplit]
      obtain ⟨-, rfl, hsep⟩ : _ ∧ depth = 0 ∧ _ := hsplit
      -- A separator is neither a quote nor a bracket, so it is asked about last.
      obtain ⟨-, hquote, hbracket⟩ := isSeparator_plain (hseparators c hsep)
      obtain ⟨hopener, hcloser⟩ := isTypeBracket_plain hbracket previous
      simp [hquote, hopener, hcloser, hsep]
    · have hsep : (depth == 0 && separators.contains c) = false := by
        simpa [Splits] using hsplit
      rw [if_neg hsplit, hsep]
      by_cases hquote : isQuote c = true
      · have hplain := isTypeBracket_plain (isTypeBracket_of_isQuote hquote) previous
        simp [next, depthAfter, Literal.step, hquote, hplain]
      · by_cases hopener : isTypeOpener c = true
        · simp [next, depthAfter, Literal.step, hquote, hopener]
        · by_cases hcloser : closesTopLevel previous c = true <;>
            simp [next, depthAfter, Literal.step, hquote, hopener, hcloser]
  | inside quote => simp [pieces, next, depthAfter, Splits]
  | escaped quote => simp [pieces, next, depthAfter, Splits]

/-- What is read as part of one piece is added to the piece, unless its last character opens a
comment together with what follows. -/
theorem pieces_reach (hseparators : ∀ c ∈ separators, isSeparator c) {rest : List Char}
    (hrest : ∀ d, rest.head? = some d → ¬ there.StartsComment d) (text : List Char) :
    ∀ {here : Reading}, reach separators here text = some there → ∀ piece,
      pieces separators (.source here.lit) here.previous here.depth piece (text ++ rest) =
        pieces separators (.source there.lit) there.previous there.depth (text.reverse ++ piece)
          rest := by
  induction text with
  | nil =>
    intro here h piece
    obtain rfl : here = there := Option.some.inj h
    rfl
  | cons c text ih =>
    intro here h piece
    obtain ⟨-, hsplit, hreach⟩ := reach_cons_eq_some_iff.mp h
    -- A comment here would be marked by the next character, which is read or comes behind the text.
    have hcomment : ¬ (here.lit = .code ∧ OpensComment (c :: (text ++ rest))) := by
      rintro ⟨hcode, d, more, htext, hmark⟩
      obtain ⟨rfl, hbehind⟩ := List.cons.inj htext
      have hcomments : (here.next '/').StartsComment d := by
        refine ⟨?_, rfl, hmark⟩
        show here.lit.step '/' = .code
        rw [hcode]
        rfl
      cases text with
      | nil =>
        obtain rfl : here.next '/' = there := Option.some.inj hreach
        rw [List.nil_append] at hbehind
        exact hrest d (by rw [hbehind, List.head?_cons]) hcomments
      | cons e text =>
        obtain rfl : e = d := (List.cons.inj hbehind).1
        exact (reach_cons_eq_some_iff.mp hreach).1 hcomments
    rw [List.cons_append, pieces_cons hseparators here hcomment, if_neg hsplit, ih hreach]
    simp

/-- A text that is read as one piece is the only piece. -/
theorem pieces_of_reach (hseparators : ∀ c ∈ separators, isSeparator c) {text : List Char}
    (h : reach separators start text = some there) :
    pieces separators (.source .code) none 0 [] text = [text] := by
  have hrest (d : Char) (hd : ([] : List Char).head? = some d) : ¬ there.StartsComment d := by
    contradiction
  have hreach := pieces_reach hseparators hrest text h []
  rw [List.append_nil, List.append_nil] at hreach
  exact hreach.trans (by rw [pieces, List.reverse_reverse])

/-- A piece ends at a separator. -/
theorem pieces_reach_separator (hseparators : ∀ c ∈ separators, isSeparator c) {front : List Char}
    {previous : Option Char} (h : reach separators start front = some ⟨.code, 0, previous⟩)
    (hc : c ∈ separators) (back : List Char) :
    pieces separators (.source .code) none 0 [] (front ++ c :: back) =
      front :: pieces separators (.source .code) (some c) 0 [] back := by
  obtain ⟨⟨hslash, hstar, -⟩, -⟩ := isSeparator_plain (hseparators c hc)
  have hrest (d : Char) (hd : (c :: back).head? = some d) :
      ¬ StartsComment ⟨.code, 0, previous⟩ d := by
    obtain rfl : c = d := Option.some.inj hd
    rintro ⟨-, -, rfl | rfl⟩ <;> contradiction
  have hcomment : ¬ (Literal.code = .code ∧ OpensComment (c :: back)) := by
    rintro ⟨-, d, more, htext, -⟩
    exact hslash (List.cons.inj htext).1
  have hreach := pieces_reach hseparators hrest front h []
  have hsplit : Splits separators ⟨.code, 0, previous⟩ c := ⟨rfl, rfl, hc⟩
  have hcons := pieces_cons hseparators ⟨.code, 0, previous⟩ hcomment front.reverse
  rw [if_pos hsplit, List.reverse_reverse] at hcons
  rw [List.append_nil] at hreach
  exact hreach.trans hcons

/-- Outside brackets it makes no difference to the pieces which character stands before. -/
theorem pieces_previous (hseparators : ∀ c ∈ separators, isSeparator c) (previous : Option Char)
    (text : List Char) :
    pieces separators (.source .code) previous 0 [] text =
      pieces separators (.source .code) none 0 [] text := by
  cases text with
  | nil => rw [pieces, pieces]
  | cons c rest =>
    by_cases hcomment : OpensComment (c :: rest)
    · obtain ⟨d, more, htext, rfl | rfl⟩ := hcomment <;> rw [htext, pieces, pieces]
    · have hcode (previous : Option Char) :=
        pieces_cons hseparators ⟨.code, 0, previous⟩ (fun h => hcomment h.2) []
      have hnext : next ⟨.code, 0, previous⟩ c = next ⟨.code, 0, none⟩ c := by
        simp [next, depthAfter]
      exact (hcode previous).trans (by rw [hnext]; exact (hcode none).symm)

end

/-! ## Nesting -/

/-- Whether a bracket closes at a place. Angle brackets count, but not the one that ends an
arrow. -/
def closesAt (text : List Char) (place : Nat) : Bool :=
  standsAt text isCloser place ||
    (standsAt text (· == '>') place && (text.take place).getLast? != some '=')

/-- How many more brackets have opened outside literals before a place than have closed. -/
def nesting (text : List Char) (place : Nat) : Int :=
  codeCount text 0 place (standsAt text isTypeOpener) - codeCount text 0 place (closesAt text)

/-- Whether a bracket that opens before a place is still open there: since some earlier place more
brackets have opened than closed. -/
def Enclosed (text : List Char) (place : Nat) : Prop :=
  ∃ earlier ≤ place, nesting text earlier < nesting text place

instance (text : List Char) (place : Nat) : Decidable (Enclosed text place) :=
  inferInstanceAs (Decidable (∃ earlier, earlier ≤ place ∧ _))

section

variable {separators text : List Char} {place : Nat} {here : Reading} {c : Char}

theorem codeAt_zero_iff : CodeAt text 0 place ↔ CodeText (text.take place) := by
  rw [CodeAt, between, List.drop_zero, Nat.sub_zero]

theorem nesting_zero : nesting text 0 = 0 := by
  simp [nesting, codeCount_self]

/-- Outside literals a place is nested as deep as the one before, give or take the bracket there. -/
theorem nesting_succ (hcode : CodeAt text 0 place) :
    nesting text (place + 1) = nesting text place +
      (if standsAt text isTypeOpener place then 1 else 0) -
        (if closesAt text place then 1 else 0) := by
  simp only [nesting, codeCount_succ (Nat.zero_le place), hcode, true_and]
  split <;> split <;> omega

/-- Brackets in literals do not count. -/
theorem nesting_succ_of_literal (hliteral : ¬ CodeAt text 0 place) :
    nesting text (place + 1) = nesting text place := by
  simp [nesting, codeCount_succ (Nat.zero_le place), hliteral]

/-- What closes for a scan closes, and so does the end of a generic with which the text begins. -/
theorem closesAt_eq (hplace : place < text.length)
    (hprevious : here.previous = (text.take place).getLast?) :
    closesAt text place = (closesTopLevel here.previous text[place] ||
      (text[place] == '>' && here.previous.isNone)) := by
  have hget := standsAt_of_getElem? (List.getElem?_eq_getElem hplace)
  rw [closesAt, closesTopLevel, hget, hget, ← hprevious, Bool.or_assoc, ← Bool.and_or_distrib_left]
  cases here.previous <;> simp [bne]

/-- The depth follows the nesting, but never falls below zero. -/
theorem depth_next (hplace : place < text.length)
    (h : reach separators start (text.take place) = some here) :
    ((here.next text[place]).depth : Int) =
      max 0 (here.depth + (nesting text (place + 1) - nesting text place)) := by
  obtain ⟨hcode, hprevious⟩ := reach_start h
  rw [← codeAt_zero_iff] at hcode
  show ((here.depthAfter text[place] : Nat) : Int) = _
  by_cases hlit : here.lit = .code
  · have hcloses := closesAt_eq hplace hprevious
    rw [nesting_succ (hcode.mp hlit), standsAt_of_getElem? (List.getElem?_eq_getElem hplace),
      depthAfter, if_pos hlit]
    -- The character is an opener, a closer, an angle bracket at the very start, or neither.
    by_cases hopener : isTypeOpener text[place] = true
    · obtain ⟨hcloser, hangle⟩ :=
        Bool.or_eq_false_iff.mp (isTypeCloser_of_isTypeOpener hopener)
      have hopens : closesAt text place = false := by
        rw [hcloses, closesTopLevel, hcloser, hangle]
        rfl
      simp only [hopener, hopens, if_true, Bool.false_eq_true, if_false]
      omega
    · by_cases hcloser : closesTopLevel here.previous text[place] = true
      · rw [hcloser, Bool.true_or] at hcloses
        simp only [hopener, hcloser, hcloses, Bool.false_eq_true, if_true, if_false]
        omega
      · by_cases hfirst : (text[place] == '>' && here.previous.isNone) = true
        · -- Nothing stands before, so the scan is at its start and no bracket is open.
          have hnil : text.take place = [] := by
            rw [← List.getLast?_eq_none_iff, ← hprevious]
            exact Option.isNone_iff_eq_none.mp (Bool.and_eq_true_iff.mp hfirst).2
          rw [hnil] at h
          obtain rfl : start = here := Option.some.inj h
          rw [hfirst, Bool.or_true] at hcloses
          simp only [hopener, hcloser, hcloses, Bool.false_eq_true, if_true, if_false]
          simp [start]
        · rw [Bool.eq_false_iff.mpr hcloser, Bool.eq_false_iff.mpr hfirst, Bool.or_false] at hcloses
          simp only [hopener, hcloser, hcloses, Bool.false_eq_true, if_false]
          omega
  · rw [nesting_succ_of_literal (mt hcode.mpr hlit), depthAfter, if_neg hlit]
    omega

/-- How deep a scan stands is how much more is nested there than where least was nested before. The
induction is on the place: a closer too many lowers the least instead of the depth. -/
theorem nesting_of_reach (hplace : place ≤ text.length)
    (h : reach separators start (text.take place) = some here) :
    (∀ earlier ≤ place, nesting text place ≤ nesting text earlier + here.depth) ∧
      ∃ earlier ≤ place, nesting text place = nesting text earlier + here.depth := by
  induction place generalizing here with
  | zero =>
    obtain rfl : start = here := Option.some.inj h
    refine ⟨fun earlier hearlier => ?_, 0, Nat.le_refl 0, by simp [start]⟩
    rw [Nat.le_zero.mp hearlier]
    simp
  | succ place ih =>
    rw [List.take_succ_eq_append_getElem hplace, reach_append, Option.bind_eq_some_iff] at h
    obtain ⟨before, hbefore, hstep⟩ := h
    obtain ⟨-, -, hnext⟩ := reach_cons_eq_some_iff.mp hstep
    obtain rfl : before.next text[place] = here := Option.some.inj hnext
    obtain ⟨hleast, earlier, hearlier, hreached⟩ := ih (Nat.le_of_lt hplace) hbefore
    have hdepth := depth_next hplace hbefore
    constructor
    · intro other hother
      rcases Nat.lt_or_eq_of_le hother with hother | rfl
      · have hother := hleast other (Nat.le_of_lt_succ hother)
        omega
      · omega
    · -- Either the depth follows the nesting, or a closer too many makes this place the least.
      by_cases hlow : 0 ≤ before.depth + (nesting text (place + 1) - nesting text place)
      · exact ⟨earlier, Nat.le_succ_of_le hearlier, by omega⟩
      · exact ⟨place + 1, Nat.le_refl _, by omega⟩

/-- **Depth.** Brackets are open in a scan exactly where they enclose the place. -/
theorem depth_eq_zero_iff (hplace : place ≤ text.length)
    (h : reach separators start (text.take place) = some here) :
    here.depth = 0 ↔ ¬ Enclosed text place := by
  obtain ⟨hleast, earlier, hearlier, hreached⟩ := nesting_of_reach hplace h
  constructor
  · rintro hzero ⟨other, hother, hless⟩
    have hother := hleast other hother
    omega
  · intro hopen
    by_contra hdepth
    exact hopen ⟨earlier, hearlier, by omega⟩

end

end CodeSurvey.Source
