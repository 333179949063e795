import CodeSurvey.Proofs.Scans
import CodeSurvey.Source.TopLevel
import Mathlib.Data.List.Infix
import Mathlib.Data.List.TakeWhile

/-!
# Comments

Comments are dropped where lists are split, but the scans for closing brackets and for the end of an
expression read them like code. A comment can be blanked out without moving a bound exactly if it
has no effect of its own: what it opens it closes, literals included.

- `IsComment`: what a comment is; `pieces_comment`: where lists are split, comments are dropped.
- `Inert`: comments that the scan for the end of an expression does not notice.
- `bounds_blanked`: comments that can be blanked out without moving a bound.
- `closing?_blanked_iff`: no others can be where they stand between two brackets.
-/

namespace CodeSurvey.Source

open Text

/-! ## Comments -/

/-- Whether a text is a comment in front of another: a line comment reaches the end of the line, a
block comment its first closing mark or, where there is none, the end of the text. -/
def IsComment (comment rest : List Char) : Prop :=
  (∃ body, comment = '/' :: '/' :: body ∧ '\n' ∉ body ∧ (rest = [] ∨ rest.head? = some '\n')) ∨
  (∃ body, comment = '/' :: '*' :: (body ++ ['*', '/']) ∧ ¬ ['*', '/'] <:+: body ++ ['*']) ∨
  (∃ body, comment = '/' :: '*' :: body ∧ ¬ ['*', '/'] <:+: body ∧ rest = [])

/-- The text with blanks in place of all characters but line feeds. -/
def blanked (text : List Char) : List Char :=
  text.map fun c => if c == '\n' then c else ' '

@[simp] theorem length_blanked (text : List Char) : (blanked text).length = text.length :=
  List.length_map ..

/-- Whether the scan that starts at an offset stands outside literals at the end of a text. -/
def OutsideLiterals (text : List Char) (start : Nat) : Prop :=
  (text.drop start).foldl Literal.step .code = .code

instance (text : List Char) (start : Nat) : Decidable (OutsideLiterals text start) :=
  inferInstanceAs (Decidable (_ = _))

/-! ## Splitting -/

/-- The characters of a line comment are dropped, its line feed is not. -/
theorem pieces_lineComment (separators : List Char) {rest : List Char}
    (hrest : rest = [] ∨ rest.head? = some '\n') (body : List Char) (hbody : '\n' ∉ body)
    (previous : Option Char) (depth : Nat) (piece : List Char) :
    pieces separators .lineComment previous depth piece (body ++ rest) =
      pieces separators (.source .code) previous depth piece rest := by
  induction body with
  | nil =>
    rcases hrest with rfl | hfeed
    · simp [pieces]
    · obtain ⟨more, rfl⟩ : ∃ more, rest = '\n' :: more := by
        cases rest with
        | nil => contradiction
        | cons c more => exact ⟨more, by rw [Option.some.inj hfeed]⟩
      have hplain : isQuote '\n' = false ∧ isTypeOpener '\n' = false ∧
          closesTopLevel previous '\n' = false := by
        refine ⟨by decide, by decide, ?_⟩
        simp [closesTopLevel, isCloser]
      rw [List.nil_append, pieces.eq_def, pieces.eq_def _ (.source .code)]
      simp [hplain]
  | cons c body ih =>
    have hc : (c == '\n') = false := by
      rw [beq_eq_false_iff_ne]
      rintro rfl
      exact hbody List.mem_cons_self
    have hrest : '\n' ∉ body := fun h => hbody (List.mem_cons_of_mem _ h)
    rw [List.cons_append, pieces.eq_def]
    simp only [hc, Bool.false_eq_true, if_false]
    exact ih hrest

/-- A block comment is dropped up to its first closing mark. -/
theorem pieces_blockComment (separators rest : List Char) (body : List Char)
    (hbody : ¬ ['*', '/'] <:+: body ++ ['*']) :
    ∀ (previous : Option Char) (depth : Nat) (piece : List Char),
      pieces separators .blockComment previous depth piece (body ++ '*' :: '/' :: rest) =
        pieces separators (.source .code) (some '/') depth piece rest := by
  induction body with
  | nil =>
    intro previous depth piece
    rw [List.nil_append, pieces]
  | cons c body ih =>
    intro previous depth piece
    have hrest : ¬ ['*', '/'] <:+: body ++ ['*'] := fun h =>
      hbody (h.trans (List.suffix_cons c _).isInfix)
    rw [List.cons_append, pieces, ih hrest]
    -- Otherwise the comment would close here.
    rintro more rfl hmore
    apply hbody
    cases body with
    | nil => simp at hmore
    | cons d body =>
      rw [List.cons_append, List.cons.injEq] at hmore
      rw [hmore.1]
      exact (List.prefix_append ['*', '/'] (body ++ ['*'])).isInfix

/-- Without a closing mark a block comment reaches the end. -/
theorem pieces_openComment (separators : List Char) (body : List Char)
    (hbody : ¬ ['*', '/'] <:+: body) :
    ∀ (previous : Option Char) (depth : Nat) (piece : List Char),
      pieces separators .blockComment previous depth piece body = [piece.reverse] := by
  induction body with
  | nil =>
    intro previous depth piece
    rw [pieces]
  | cons c body ih =>
    intro previous depth piece
    have hrest : ¬ ['*', '/'] <:+: body := fun h => hbody (h.trans (List.suffix_cons c _).isInfix)
    rw [pieces, ih hrest]
    rintro more rfl rfl
    exact hbody (List.prefix_append ['*', '/'] more).isInfix

/-- **Splitting.** Where lists are split, a comment is dropped whatever it holds; the scan goes on as
if a slash stood before. -/
theorem pieces_comment (separators : List Char) {comment rest : List Char}
    (h : IsComment comment rest) (previous : Option Char) (depth : Nat) (piece : List Char) :
    pieces separators (.source .code) previous depth piece (comment ++ rest) =
      pieces separators (.source .code) (some '/') depth piece rest := by
  rcases h with ⟨body, rfl, hbody, hrest⟩ | ⟨body, rfl, hbody⟩ | ⟨body, rfl, hbody, rfl⟩
  · exact pieces_lineComment separators hrest body hbody _ depth piece
  · have hclosed := pieces_blockComment separators rest body hbody (some '*') depth piece
    simpa [pieces] using hclosed
  · have hopen := pieces_openComment separators body hbody (some '*') depth piece
    simpa [pieces] using hopen

/-! ## Comments without effect -/

/-- What a comment has to be like so that the scan for the end of an expression does not notice it:
it keeps the balance of brackets and literals; its first line, which is all that is read outside
brackets, does so for itself and holds no semicolon outside them; and no literal in it holds a
backslash, at which a ceiling could cut. -/
structure Inert (comment : List Char) : Prop where
  neutral : Neutral isOpener isCloser comment
  line : passOver isOpener isCloser (· == ';') .code 0 (comment.takeWhile (· != '\n')) =
    some (.code, 0)
  unescaped : ∀ front ∈ comment.inits, (front.foldl Literal.step .code).isEscaped = false

/-- Blanks are passed over. -/
theorem passOver_blanked {opens closes ends : Char → Bool} {depth : Nat} (text : List Char)
    (hbrackets : ∀ c, opens c || closes c → isSpace c = false)
    (hends : ∀ c ∈ blanked text, (ends c && depth == 0) = false) :
    passOver opens closes ends .code depth (blanked text) = some (.code, depth) := by
  have hblank (c : Char) (hc : c ∈ blanked text) : c = ' ' ∨ c = '\n' := by
    obtain ⟨d, -, rfl⟩ := List.mem_map.mp hc
    by_cases hd : (d == '\n') = true
    · rw [if_pos hd]
      exact .inr (beq_iff_eq.mp hd)
    · rw [if_neg hd]
      exact .inl rfl
  apply passOver_plain
  · intro c hc
    have hspace : isSpace c = true := by
      rcases hblank c hc with rfl | rfl <;> decide
    have hnot := mt (hbrackets c) (by simp [hspace])
    simpa using hnot
  · intro c hc
    rcases hblank c hc with rfl | rfl <;> rfl
  · exact hends

theorem neutral_blanked {opens closes : Char → Bool}
    (hbrackets : ∀ c, opens c || closes c → isSpace c = false) (text : List Char) :
    Neutral opens closes (blanked text) :=
  passOver_blanked text hbrackets fun _ _ => rfl

/-- Of two texts without effect it makes no difference which one stands in front of a closing
bracket. -/
theorem closeAhead?_neutral {opener closer : Char} {first second : List Char}
    (hfirst : Neutral (· == opener) (· == closer) first)
    (hsecond : Neutral (· == opener) (· == closer) second) (hlength : first.length = second.length)
    (depth : Nat) (rest : List Char) :
    closeAhead? opener closer .code (depth + 1) (first ++ rest) =
      closeAhead? opener closer .code (depth + 1) (second ++ rest) := by
  have hdeeper {text : List Char} (h : Neutral (· == opener) (· == closer) text) :
      closeAhead? opener closer .code (depth + 1) (text ++ rest) =
        (closeAhead? opener closer .code (depth + 1) rest).map (· + text.length) := by
    cases depth with
    | zero => exact closeAhead?_append text rest h
    | succ more =>
      have hmore := passOver_deeper never more text h
      rw [Nat.zero_add] at hmore
      exact closeAhead?_append text rest hmore
  rw [hdeeper hfirst, hdeeper hsecond, hlength]

/-- Of two texts without effect on the balance of one kind of brackets it makes no difference which
one stands behind the bracket of that kind whose closing one is sought. -/
theorem closing?_neutral (before after : List Char) {first second : List Char} {start : Nat}
    (hstart : start < before.length) (houtside : OutsideLiterals before start)
    (hlength : first.length = second.length)
    (hneutral : ∀ closer, closer? before[start] = some closer →
      Neutral (· == before[start]) (· == closer) first ∧
        Neutral (· == before[start]) (· == closer) second)
    (ceiling : Int) :
    closing? (before ++ first ++ after) start ceiling =
      closing? (before ++ second ++ after) start ceiling := by
  have hopener (text : List Char) : (before ++ text ++ after)[start]? = some before[start] := by
    rw [List.append_assoc, List.getElem?_append_left hstart, List.getElem?_eq_getElem hstart]
  have hdrop (text : List Char) : (before ++ text ++ after).drop start =
      before[start] :: (before.drop (start + 1) ++ (text ++ after)) := by
    rw [List.append_assoc, List.drop_append_of_le_length (Nat.le_of_lt hstart),
      List.drop_eq_getElem_cons hstart, List.cons_append]
  cases hcloser : closer? before[start] with
  | none =>
    simp only [closing?, hopener, hcloser, Option.bind_eq_bind, Option.bind_some, Option.bind_none]
  | some closer =>
    obtain ⟨hfirst, hsecond⟩ := hneutral closer hcloser
    have hquotes (c : Char) (hc : c == before[start] || c == closer) : isQuote c = false :=
      isQuote_of_bracket c (isBracket_of_closer? hcloser c hc)
    have hstep (rest : List Char) : closeAhead? before[start] closer .code 0
        (before[start] :: rest) = (closeAhead? before[start] closer .code 1 rest).map (· + 1) := by
      rw [closeAhead?, if_pos (beq_self_eq_true _)]
    -- The opener itself does not open a literal, so what follows it is read from code to code.
    have hmiddle : (before.drop (start + 1)).foldl Literal.step .code = .code := by
      have hcode : Literal.code.step before[start] = .code := by
        simp [Literal.step, hquotes _ (by simp : before[start] == before[start] || _)]
      rw [OutsideLiterals, List.drop_eq_getElem_cons hstart, List.foldl_cons, hcode] at houtside
      exact houtside
    have hahead : closeAhead? before[start] closer .code 0
          (before[start] :: (before.drop (start + 1) ++ (first ++ after))) =
        closeAhead? before[start] closer .code 0
          (before[start] :: (before.drop (start + 1) ++ (second ++ after))) := by
      rw [hstep, hstep]
      cases hpass : passOver (· == before[start]) (· == closer) never .code 0
          (before.drop (start + 1)) with
      | none =>
        obtain ⟨n, -, hn⟩ := closeAhead?_of_stops _ hpass
        rw [hn, hn]
      | some here =>
        have hcode : here.1 = .code := (passOver_literal hquotes _ hpass).symm.trans hmiddle
        rw [closeAhead?_append _ _ hpass, closeAhead?_append _ _ hpass, hcode,
          closeAhead?_neutral hfirst hsecond hlength]
    simp only [closing?, hopener, hcloser, Option.bind_eq_bind, Option.bind_some, window,
      closeAhead?_take, hdrop, hahead]

/-- A comment that the scan does not notice can be blanked out. -/
theorem expressionAhead_inert {comment : List Char} (h : Inert comment) (depth : Nat)
    (rest : List Char) :
    expressionAhead .code depth (blanked comment ++ rest) =
      expressionAhead .code depth (comment ++ rest) := by
  cases depth with
  | succ more =>
    -- Inside brackets only balance counts.
    have hdeeper {text : List Char} (hneutral : Neutral isOpener isCloser text) :
        expressionAhead .code (more + 1) (text ++ rest) =
          expressionAhead .code (more + 1) rest + text.length := by
      have hpass := passOver_deeper breaks more text hneutral
      rw [Nat.zero_add] at hpass
      exact expressionAhead_append text rest hpass
    rw [hdeeper h.neutral, hdeeper (neutral_blanked isSpace_of_bracket comment), length_blanked]
  | zero =>
    obtain ⟨line, hline⟩ : ∃ line, line = comment.takeWhile (· != '\n') := ⟨_, rfl⟩
    obtain ⟨tail, htail⟩ : ∃ tail, tail = comment.dropWhile (· != '\n') := ⟨_, rfl⟩
    have hsplit : comment = line ++ tail := by
      rw [hline, htail, List.takeWhile_append_dropWhile]
    have hfeed (c : Char) (hc : c ∈ line) : c ≠ '\n' := by
      rw [hline] at hc
      simpa using List.mem_takeWhile_imp hc
    have hpass : passOver isOpener isCloser breaks .code 0 line = some (.code, 0) := by
      have hsame (c : Char) (hc : c ∈ line) : breaks c = (c == ';') := by
        simp [breaks, hfeed c hc]
      rw [passOver_congr line hsame, hline]
      exact h.line
    have hblank : passOver isOpener isCloser breaks .code 0 (blanked line) = some (.code, 0) := by
      apply passOver_blanked line isSpace_of_bracket
      intro c hc
      obtain ⟨d, hd, rfl⟩ := List.mem_map.mp hc
      simp [breaks, hfeed d hd]
    have hmap : blanked comment = blanked line ++ blanked tail := by
      rw [hsplit, blanked, List.map_append]
      rfl
    rw [hmap, hsplit, List.append_assoc, List.append_assoc, expressionAhead_append _ _ hpass,
      expressionAhead_append _ _ hblank, length_blanked]
    congr 1
    -- Behind its first line the comment is not read any more.
    cases tail with
    | nil => rfl
    | cons c more =>
      have hc : c = '\n' := by
        have hhead := List.head?_dropWhile_not (· != '\n') comment
        rw [← htail] at hhead
        simpa using hhead
      subst hc
      simp [blanked, expressionAhead, isOpener, isCloser]

/-- Nowhere in a text is a scan more in a literal if an inert comment is not blanked out. -/
theorem isEscaped_inert {comment : List Char} (h : Inert comment) {front : List Char}
    (hfront : front.foldl Literal.step .code = .code) (rest : List Char) (k : Nat) :
    (((front ++ (blanked comment ++ rest)).take k).foldl Literal.step .code).isEscaped =
      (((front ++ (comment ++ rest)).take k).foldl Literal.step .code).isEscaped := by
  have hblanks (text : List Char) : (blanked text).foldl Literal.step .code = .code :=
    passOver_literal isQuote_of_bracket _ (neutral_blanked isSpace_of_bracket text)
  have hcomment : comment.foldl Literal.step .code = .code :=
    passOver_literal isQuote_of_bracket _ h.neutral
  rw [List.take_append, List.take_append, List.take_append, List.take_append, length_blanked]
  by_cases hbefore : k ≤ front.length
  · simp [Nat.sub_eq_zero_of_le hbefore]
  · rw [List.take_of_length_le (by omega : front.length ≤ k)]
    simp only [List.foldl_append, hfront]
    by_cases hin : k - front.length ≤ comment.length
    · have hcut : (blanked comment).take (k - front.length) =
          blanked (comment.take (k - front.length)) := List.map_take.symm
      have hunescaped := h.unescaped (comment.take (k - front.length))
        ((List.mem_inits _ _).mpr (List.take_prefix _ _))
      have hcode : Literal.code.isEscaped = false := rfl
      simp [Nat.sub_eq_zero_of_le hin, hcut, hblanks, hunescaped, hcode]
    · rw [List.take_of_length_le (by omega : comment.length ≤ k - front.length),
        List.take_of_length_le (by rw [length_blanked]; omega), hblanks, hcomment]

/-- The end of an expression does not depend on whether an inert comment is blanked out. -/
theorem expressionEnd_inert (before after : List Char) {comment : List Char} (h : Inert comment)
    {start : Nat} (hstart : start ≤ before.length) (houtside : OutsideLiterals before start)
    (ceiling : Int) :
    expressionEnd (before ++ blanked comment ++ after) start ceiling =
      expressionEnd (before ++ comment ++ after) start ceiling := by
  have hdrop (text : List Char) : (before ++ text ++ after).drop start =
      before.drop start ++ (text ++ after) := by
    rw [List.append_assoc, List.drop_append_of_le_length hstart]
  have hahead : expressionAhead .code 0 (before.drop start ++ (blanked comment ++ after)) =
      expressionAhead .code 0 (before.drop start ++ (comment ++ after)) := by
    cases hpass : passOver isOpener isCloser breaks .code 0 (before.drop start) with
    | none =>
      obtain ⟨n, -, hn⟩ := expressionAhead_of_stops _ hpass
      rw [hn, hn]
    | some here =>
      have hcode : here.1 = .code :=
        (passOver_literal isQuote_of_bracket _ hpass).symm.trans houtside
      rw [expressionAhead_append _ _ hpass, expressionAhead_append _ _ hpass, hcode,
        expressionAhead_inert h]
  have hlength : (before.drop start ++ (blanked comment ++ after)).length =
      (before.drop start ++ (comment ++ after)).length := by
    simp
  rw [expressionEnd, expressionEnd, window, window, hdrop, hdrop]
  congr 1
  by_cases hlong : ceiling.toNat ≤ (before.drop start ++ (comment ++ after)).length
  · rw [expressionAhead_take _ _ _ _ (hlength ▸ hlong), expressionAhead_take _ _ _ _ hlong, hahead,
      isEscaped_inert h houtside]
  · rw [List.take_of_length_le (by omega), List.take_of_length_le (by omega), hahead]

/-! ## Comments and bounds -/

/-- A comment does not start with a bracket. -/
theorem IsComment.head {comment rest : List Char} (h : IsComment comment rest) :
    ∃ more, comment = '/' :: more := by
  rcases h with ⟨body, rfl, -⟩ | ⟨body, rfl, -⟩ | ⟨body, rfl, -⟩ <;> exact ⟨_, rfl⟩

/-- **Comments.** Behind the place where a scan starts, a comment outside literals can be blanked
out: for the scan from a bracket if its brackets of that kind and its quotes are in balance, for the
scan for the end of an expression if it is inert. -/
theorem bounds_blanked (before : List Char) {comment after : List Char}
    (hcomment : IsComment comment after) {start : Nat} (hstart : start ≤ before.length)
    (houtside : OutsideLiterals before start) (ceiling : Int) :
    ((∀ opener closer, before[start]? = some opener → closer? opener = some closer →
        Neutral (· == opener) (· == closer) comment) →
      closing? (before ++ blanked comment ++ after) start ceiling =
        closing? (before ++ comment ++ after) start ceiling) ∧
    (Inert comment →
      expressionEnd (before ++ blanked comment ++ after) start ceiling =
        expressionEnd (before ++ comment ++ after) start ceiling) := by
  refine ⟨fun hneutral => ?_, fun h => expressionEnd_inert before after h hstart houtside ceiling⟩
  by_cases hbehind : start < before.length
  · apply closing?_neutral before after hbehind houtside (length_blanked comment)
    intro closer hcloser
    constructor
    · apply neutral_blanked
      intro c hc
      exact isSpace_of_bracket c (isBracket_of_closer? hcloser c hc)
    · exact hneutral _ closer (List.getElem?_eq_getElem hbehind) hcloser
  · -- Where the scan would start at the comment, neither text has a bracket.
    obtain ⟨more, rfl⟩ := hcomment.head
    obtain rfl : start = before.length := by omega
    simp [closing?, blanked, closer?]

/-- A comment in balance, in a list of parameters and in an expression that goes on behind it. -/
theorem bounds_blanked_balanced :
    let before := "f(a ".toList
    let comment := "/* (b) 'c' */".toList
    let after := ", d);".toList
    (IsComment comment after ∧ OutsideLiterals before 1 ∧ Neutral (· == '(') (· == ')') comment ∧
        Inert comment) ∧
      closing? (before ++ blanked comment ++ after) 1 = closing? (before ++ comment ++ after) 1 ∧
      expressionEnd (before ++ blanked comment ++ after) 1 =
        expressionEnd (before ++ comment ++ after) 1 := by
  intro before comment after
  have hcomment : IsComment comment after := .inr (.inl ⟨" (b) 'c' ".toList, rfl, by decide⟩)
  have houtside : OutsideLiterals before 1 := by decide
  have hneutral : Neutral (· == '(') (· == ')') comment := by decide
  have hinert : Inert comment := ⟨by decide, by decide, by decide⟩
  have hstart : 1 ≤ before.length := by decide
  refine ⟨⟨hcomment, houtside, hneutral, hinert⟩, ?_, ?_⟩
  · apply (bounds_blanked before hcomment hstart houtside signatureCeiling).1
    intro opener closer hopener hcloser
    obtain rfl : '(' = opener := Option.some.inj hopener
    obtain rfl : ')' = closer := Option.some.inj hcloser
    exact hneutral
  · exact (bounds_blanked before hcomment hstart houtside blockCeiling).2 hinert

/-- Comments that are blanked out where that moves the bracket that closes a list of parameters, and
the end of an expression. -/
theorem comments_move_bounds :
    (let before := "(a ".toList
      let comment := "/* ) */".toList
      IsComment comment ")".toList ∧ OutsideLiterals before 0 ∧
        closing? (before ++ comment ++ ")".toList) 0 = some 6 ∧
        closing? (before ++ blanked comment ++ ")".toList) 0 = some 10) ∧
      let before := "a ".toList
      let comment := "/* ; */".toList
      IsComment comment "+ b;".toList ∧ OutsideLiterals before 0 ∧
        expressionEnd (before ++ comment ++ "+ b;".toList) 0 = 5 ∧
        expressionEnd (before ++ blanked comment ++ "+ b;".toList) 0 = 12 := by
  refine ⟨⟨.inr (.inl ⟨" ) ".toList, rfl, by decide⟩), by decide, by decide, by decide⟩,
    .inr (.inl ⟨" ; ".toList, rfl, by decide⟩), by decide, by decide, by decide⟩

/-- **No more than balance.** A text that can be blanked out between a bracket and the one that
closes it has no effect on the balance of brackets of that kind. -/
theorem closing?_blanked_iff {opener closer : Char} (hkind : closer? opener = some closer)
    (text : List Char) {ceiling : Int} (hceiling : (text.length : Int) + 2 ≤ ceiling) :
    closing? (opener :: (blanked text ++ [closer])) 0 ceiling =
        closing? (opener :: (text ++ [closer])) 0 ceiling ↔
      Neutral (· == opener) (· == closer) text := by
  have hblank : Neutral (· == opener) (· == closer) (blanked text) := by
    apply neutral_blanked
    intro c hc
    exact isSpace_of_bracket c (isBracket_of_closer? hkind c hc)
  have hahead (middle : List Char) (hlength : middle.length = text.length) :
      closing? (opener :: (middle ++ [closer])) 0 ceiling =
        (closeAhead? opener closer .code 1 (middle ++ [closer])).map (· + 1) := by
    have hwindow : window (opener :: (middle ++ [closer])) 0 ceiling =
        opener :: (middle ++ [closer]) := by
      apply List.take_of_length_le
      simp only [List.drop_zero, List.length_cons, List.length_append, List.length_nil, hlength]
      omega
    rw [closing?, hwindow]
    simp [hkind, closeAhead?]
  have hcloses : closeAhead? opener closer .code 1 [closer] = some 0 := by
    simp [closeAhead?, closer_ne_opener hkind]
  have hclosed : closeAhead? opener closer .code 1 (blanked text ++ [closer]) =
      some text.length := by
    rw [closeAhead?_append _ _ hblank, hcloses, length_blanked, Option.map_some, Nat.zero_add]
  rw [hahead _ (length_blanked text), hahead _ rfl, hclosed]
  constructor
  · intro hsame
    rw [Option.map_some] at hsame
    cases hpass : passOver (· == opener) (· == closer) never .code 0 text with
    | none =>
      -- The bracket would close inside the text.
      obtain ⟨n, hn, hstops⟩ := closeAhead?_of_stops _ hpass
      rw [hstops, Option.map_some, Option.some.injEq] at hsame
      omega
    | some here =>
      obtain ⟨lit, depth⟩ := here
      rw [closeAhead?_append _ _ hpass] at hsame
      -- The last character closes nothing in a literal or under more brackets.
      cases lit with
      | code =>
        cases depth with
        | zero => exact hpass
        | succ more => simp [closeAhead?, closer_ne_opener hkind] at hsame
      | inside q => simp [closeAhead?] at hsame
      | escaped q => simp [closeAhead?] at hsame
  · intro hneutral
    rw [closeAhead?_append _ _ hneutral, hcloses]
    simp

end CodeSurvey.Source
