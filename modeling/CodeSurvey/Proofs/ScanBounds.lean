import CodeSurvey.Proofs.BracketBounds
import CodeSurvey.Source.TypeText
import Mathlib.Order.Interval.Set.Defs

/-!
# How far scans go

The scans over blanks, types and expressions give back an offset. It does not lie in front of the
place where they start, nor behind the end of the text, and a scan with a ceiling does not pass that
either. There is one exception: a backslash in a literal takes the next character with it, also one
that the scan may not look at.

- `EndsInEscape`: texts that end with such a backslash.
- `returnTypeLength_le`, `definitionLength_le`: how many characters a type takes.
- `length_lt_expressionAhead_iff`, `isSome_passOver_iff`: when the scan for the end of an
  expression goes too far.
- `scans_bounded`: where scans end.
- `expressionEnd_overruns`: a scan that ends behind the text, and one that passes its ceiling.
-/

namespace CodeSurvey.Source

open Text

variable {text : List Char} {start limit : Nat}

/-! ## Blanks and types -/

theorem le_skipBlanks (text : List Char) (start : Nat) : start ≤ skipBlanks text start :=
  Nat.le_add_right _ _

theorem skipBlanks_le_length (hstart : start ≤ text.length) :
    skipBlanks text start ≤ text.length := by
  have hblanks : ((text.drop start).takeWhile isSpace).length ≤ (text.drop start).length :=
    (List.takeWhile_prefix isSpace).length_le
  rw [List.length_drop] at hblanks
  rw [skipBlanks]
  omega

/-- A return type takes no more characters than it may, and no more than there are. -/
theorem returnTypeLength_le (text : List Char) :
    ∀ (budget : Nat) (depth : Int) (inked : Bool) (previous : Char),
      returnTypeLength budget depth inked previous text ≤ min budget text.length := by
  induction text with
  | nil =>
    intro budget depth inked previous
    cases budget <;> exact Nat.zero_le _
  | cons c rest ih =>
    intro budget depth inked previous
    cases budget with
    | zero => exact Nat.zero_le _
    | succ budget =>
      rw [returnTypeLength]
      split
      · exact Nat.zero_le _
      · dsimp only
        split
        · exact Nat.zero_le _
        · rw [List.length_cons, Nat.succ_min_succ]
          exact Nat.succ_le_succ (ih ..)

/-- The right-hand side of an alias takes no more characters than it may, and no more than there
are. -/
theorem definitionLength_le (text : List Char) :
    ∀ (budget : Nat) (depth : Int) (ink previous : Option Char),
      definitionLength budget depth ink previous text ≤ min budget text.length := by
  induction text with
  | nil =>
    intro budget depth ink previous
    cases budget <;> exact Nat.zero_le _
  | cons c rest ih =>
    intro budget depth ink previous
    cases budget with
    | zero => exact Nat.zero_le _
    | succ budget =>
      rw [definitionLength, List.length_cons, Nat.succ_min_succ]
      refine iteInduction (motive := fun taken => taken ≤ _) (fun _ => Nat.zero_le _) fun _ => ?_
      exact Nat.succ_le_succ (ih ..)

/-- A return type does not stop before the place where it is looked for. -/
theorem le_returnType (text : List Char) (start : Nat) (ceiling : Int) :
    start ≤ (returnType text start ceiling).2 := by
  have hcolon := le_skipBlanks text start
  rw [returnType]
  dsimp only
  split
  · dsimp only
    omega
  · exact hcolon

theorem returnType_le_length (hstart : start ≤ text.length) (ceiling : Int) :
    (returnType text start ceiling).2 ≤ text.length := by
  have hcolon := skipBlanks_le_length hstart
  rw [returnType]
  dsimp only
  split
  · rename_i rest hrest
    -- Behind the colon there are as many characters as the type may take.
    have hlength := congrArg List.length hrest
    rw [List.length_drop, List.length_cons] at hlength
    have htaken := returnTypeLength_le rest ceiling.toNat 0 false ':'
    dsimp only
    omega
  · exact hcolon

theorem definitionEnd_le (hstart : start ≤ text.length) (ceiling : Nat) :
    definitionEnd text start ceiling ≤ min text.length (start + ceiling) := by
  rw [definitionEnd]
  generalize (if start == 0 then text.getLast? else text[start - 1]?) = previous
  have htaken := definitionLength_le (text.drop start) (ceiling : Int).toNat 0 none previous
  rw [List.length_drop, Int.toNat_natCast] at htaken
  rw [Int.toNat_natCast]
  omega

/-! ## Escapes -/

/-- Whether a text that is read from code ends in a literal that a quote has opened. -/
def EndsInLiteral (quote : Char) (text : List Char) : Prop :=
  ∃ front body, text = front ++ quote :: body ∧ CodeText front ∧ isQuote quote = true ∧
    LiteralBody quote body

/-- Whether a text that is read from code ends with a backslash in a literal that takes the next
character with it. -/
def EndsInEscape (text : List Char) : Prop :=
  ∃ quote before, text = before ++ ['\\'] ∧ EndsInLiteral quote before

theorem LiteralBody.append {quote : Char} {body more : List Char} (h : LiteralBody quote body)
    (hmore : LiteralBody quote more) : LiteralBody quote (body ++ more) := by
  induction h with
  | empty => exact hmore
  | plain hescape hquote _ ih => exact .plain hescape hquote ih
  | escape c _ ih => exact .escape c ih

theorem EndsInLiteral.append {quote : Char} {text more : List Char} (h : EndsInLiteral quote text)
    (hmore : LiteralBody quote more) : EndsInLiteral quote (text ++ more) := by
  obtain ⟨front, body, rfl, hfront, hquote, hbody⟩ := h
  exact ⟨front, body ++ more, by simp, hfront, hquote, hbody.append hmore⟩

theorem EndsInLiteral.foldl {quote : Char} {text : List Char} (h : EndsInLiteral quote text) :
    text.foldl Literal.step .code = .inside quote := by
  obtain ⟨front, body, rfl, hfront, hquote, hbody⟩ := h
  rw [List.foldl_append, hfront.foldl, List.foldl_cons, Literal.step, if_pos hquote, hbody.foldl]

/-- What a scan has read when it stands in a literal, and behind a backslash in one. The induction
is on the last character. -/
theorem endsInLiteral_of_foldl (text : List Char) (quote : Char) :
    (text.foldl Literal.step .code = .inside quote → EndsInLiteral quote text) ∧
      (text.foldl Literal.step .code = .escaped quote →
        ∃ before, text = before ++ ['\\'] ∧ EndsInLiteral quote before) := by
  induction text using List.reverseRecOn generalizing quote with
  | nil => simp
  | append_singleton text c ih =>
    rw [List.foldl_append, List.foldl_cons, List.foldl_nil]
    cases hlit : text.foldl Literal.step .code with
    | code =>
      cases hquote : isQuote c with
      | false => simp [Literal.step, hquote]
      | true =>
        simp only [Literal.step, hquote, if_true, Literal.inside.injEq, reduceCtorEq, false_implies,
          and_true]
        rintro rfl
        exact ⟨text, [], rfl, codeText_iff.mpr hlit, hquote, .empty⟩
    -- The literal goes on: its body ends with the character, unless that closes it.
    | inside other =>
      have hopen := (ih other).1 hlit
      by_cases hescape : c = '\\'
      · simp only [Literal.step, hescape, beq_self_eq_true, if_true, reduceCtorEq, false_implies,
          true_and, Literal.escaped.injEq]
        rintro rfl
        exact ⟨text, rfl, hopen⟩
      · by_cases hclose : c = other
        · subst hclose
          simp [Literal.step, hescape]
        · simp only [Literal.step, beq_iff_eq, hescape, hclose, if_false, Literal.inside.injEq,
            reduceCtorEq, false_implies, and_true]
          rintro rfl
          exact hopen.append (.plain hescape hclose .empty)
    -- The character is escaped, whatever it is, and the backslash before it is no end.
    | escaped other =>
      obtain ⟨before, rfl, hopen⟩ := (ih other).2 hlit
      simp only [Literal.step, Literal.inside.injEq, reduceCtorEq, false_implies, and_true]
      rintro rfl
      rw [List.append_assoc]
      exact hopen.append (.escape c .empty)

theorem endsInEscape_iff :
    EndsInEscape text ↔ (text.foldl Literal.step .code).isEscaped = true := by
  constructor
  · rintro ⟨quote, before, rfl, hopen⟩
    rw [List.foldl_append, hopen.foldl]
    rfl
  · intro h
    cases hlit : text.foldl Literal.step .code with
    | code => simp [hlit, Literal.isEscaped] at h
    | inside quote => simp [hlit, Literal.isEscaped] at h
    | escaped quote => exact ⟨quote, (endsInLiteral_of_foldl text quote).2 hlit⟩

instance (text : List Char) : Decidable (EndsInEscape text) :=
  decidable_of_iff _ endsInEscape_iff.symm

/-! ## Expressions -/

/-- **Too far.** The scan for the end of an expression takes at most one character more than there
are, and it does so if it passes over all of them and an escape is open behind them. -/
theorem length_lt_expressionAhead_iff (text : List Char) :
    expressionAhead .code 0 text ≤ text.length + 1 ∧
      (text.length < expressionAhead .code 0 text ↔
        (passOver isOpener isCloser breaks .code 0 text).isSome ∧ EndsInEscape text) := by
  cases hpass : passOver isOpener isCloser breaks .code 0 text with
  | none =>
    obtain ⟨n, hn, hahead⟩ := expressionAhead_of_stops text hpass
    have hahead := hahead []
    rw [List.append_nil] at hahead
    rw [hahead]
    simp only [Option.isSome_none, Bool.false_eq_true, false_and, iff_false]
    omega
  | some here =>
    have hahead := expressionAhead_append text [] hpass
    rw [List.append_nil] at hahead
    rw [endsInEscape_iff, passOver_literal isQuote_of_bracket text hpass, hahead]
    cases here.1 <;> simp [expressionAhead, Literal.isEscaped, Nat.add_comm]

theorem opener_apart (c : Char) (hc : isCloser c || breaks c) : isOpener c = false := by
  simp only [isCloser, breaks, Bool.or_eq_true, beq_iff_eq] at hc
  rcases hc with ((rfl | rfl) | rfl) | (rfl | rfl) <;> rfl

/-- The scan for the end of an expression passes over a text if it may stop nowhere in it. -/
theorem isSome_passOver_iff (hstart : start ≤ limit) (hlimit : limit ≤ text.length) :
    (passOver isOpener isCloser breaks .code 0 (between text start limit)).isSome ↔
      scanStops isOpener isCloser breaks text start limit = ∅ := by
  constructor
  · intro hpass
    rcases isLeast_or_le (scanStops isOpener isCloser breaks text start limit) limit with
      ⟨place, hfirst, -⟩ | hnone
    · obtain ⟨lit, depth, c, rest, hsplit, hbefore, hchar⟩ :=
        passOver_of_isLeast isQuote_of_bracket opener_apart hlimit hfirst
      rw [hsplit, passOver_append, hbefore, Option.bind_some, passOver_cons, hchar] at hpass
      contradiction
    · exact Set.eq_empty_of_forall_notMem fun stop hstop =>
        absurd hstop.2.1 (Nat.not_lt_of_le (hnone stop hstop))
  · intro hnone
    obtain ⟨lit, depth, hpass⟩ := passOver_of_not_stops isQuote_of_bracket opener_apart hstart
      hlimit (Nat.le_refl limit) fun stop hstop => absurd (hnone ▸ hstop) (Set.notMem_empty stop)
    rw [hpass]
    rfl

/-! ## All scans -/

/-- **Bounds.** From a place in the text, the scans over blanks and types end neither in front of
that place nor behind the text, and a type that is scanned for the end of an alias ends below the
ceiling. So does an expression, unless nothing ends it there and the last character that the scan
may look at is a backslash in a literal: then it ends one character further. -/
theorem scans_bounded (text : List Char) {start : Nat} (hstart : start ≤ text.length)
    (ceiling : Nat) :
    let limit := min text.length (start + ceiling)
    skipBlanks text start ∈ Set.Icc start text.length ∧
      (returnType text start ceiling).2 ∈ Set.Icc start text.length ∧
      definitionEnd text start ceiling ∈ Set.Icc start limit ∧
      expressionEnd text start ceiling ∈ Set.Icc start (limit + 1) ∧
      (expressionEnd text start ceiling ∉ Set.Icc start limit ↔
        scanStops isOpener isCloser breaks text start limit = ∅ ∧
          EndsInEscape (between text start limit)) := by
  intro limit
  have hlimit : start ≤ limit := by omega
  have hlength : (between text start limit).length = limit - start := by
    rw [length_between]
    omega
  have hexpression : expressionEnd text start ceiling =
      start + expressionAhead .code 0 (between text start limit) := by
    rw [expressionEnd, window_eq_between]
  obtain ⟨hone, htoofar⟩ := length_lt_expressionAhead_iff (between text start limit)
  rw [isSome_passOver_iff hlimit (Nat.min_le_left ..)] at htoofar
  refine ⟨⟨le_skipBlanks text start, skipBlanks_le_length hstart⟩,
    ⟨le_returnType text start ceiling, returnType_le_length hstart ceiling⟩,
    ⟨Nat.le_add_right .., definitionEnd_le hstart ceiling⟩, ⟨?_, ?_⟩, ?_⟩
  · omega
  · omega
  · rw [← htoofar, Set.mem_Icc, hexpression]
    omega

/-- A ceiling that lies behind a backslash in a literal, and one that lies behind the character that
it takes with it. -/
theorem scans_bounded_escape :
    let text := "f('\\\\') + 1".toList
    0 ≤ text.length ∧
      (expressionEnd text 0 (4 : Nat) = 5 ∧
        scanStops isOpener isCloser breaks text 0 (min text.length (0 + 4)) = ∅ ∧
        EndsInEscape (between text 0 (min text.length (0 + 4)))) ∧
      expressionEnd text 0 (5 : Nat) ∈ Set.Icc 0 (min text.length (0 + 5)) := by
  intro text
  have hstart : 0 ≤ text.length := Nat.zero_le _
  obtain ⟨-, -, -, -, hfour⟩ := scans_bounded text hstart 4
  obtain ⟨-, -, -, -, hfive⟩ := scans_bounded text hstart 5
  have hend : expressionEnd text 0 (4 : Nat) = 5 := by decide
  have hescape : ¬EndsInEscape (between text 0 (min text.length (0 + 5))) := by decide
  refine ⟨hstart, ⟨hend, hfour.mp ?_⟩, ?_⟩
  · rw [hend]
    decide
  · by_contra hbeyond
    exact hescape (hfive.mp hbeyond).2

/-- Behind a backslash in a literal a scan ends behind the text, and passes its ceiling. -/
theorem expressionEnd_overruns :
    let unfinished := "\"\\".toList
    let finished := "'a\\'b'".toList
    (unfinished.length = 2 ∧ expressionEnd unfinished 0 = 3) ∧
      (min finished.length (0 + 3) = 3 ∧ expressionEnd finished 0 3 = 4) := by
  decide

end CodeSurvey.Source
