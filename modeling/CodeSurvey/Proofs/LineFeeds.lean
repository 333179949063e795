import CodeSurvey.Proofs.LineNumbers
import CodeSurvey.Security.Surroundings

/-!
# Texts on both sides of a line feed

What is read line by line is read apart on both sides of a line feed: lines, lower case, and texts
that are sought and hold no line feed themselves.

- `lines_append`, `lines_add_line`: lines on both sides, and one line more.
- `lower_feed`: a line feed parts words, so letter case does not look across it.
- `contains_feed`: what holds no line feed occurs before it or behind it.
-/

namespace CodeSurvey.Text

/-! ## Lines -/

theorem splitAt_append_cons (c : Char) (before rest : List Char) :
    splitAt c (before ++ c :: rest) = splitAt c before ++ splitAt c rest := by
  induction before with
  | nil => simp [splitAt]
  | cons d before ih =>
    rw [List.cons_append, splitAt_cons, splitAt_cons, ih]
    split
    · rfl
    · have hparts := length_splitAt c before
      cases hbefore : splitAt c before with
      | nil => simp [hbefore] at hparts
      | cons part parts => rfl

theorem splitAt_eq_singleton {c : Char} {text : List Char} (h : c ∉ text) :
    splitAt c text = [text] := by
  induction text with
  | nil => rfl
  | cons d text ih =>
    rw [List.mem_cons, not_or] at h
    have hne : ¬(d == c) = true := by simpa using Ne.symm h.1
    rw [splitAt_cons, if_neg hne, ih h.2]
    rfl

/-- Where a line feed ends a text, all parts before it are lines. -/
theorem lines_append_feed (text : List Char) :
    lines (text ++ ['\n']) = (splitAt '\n' text).map withoutReturns := by
  have hparts : (splitAt '\n' (text ++ ['\n'])).map withoutReturns =
      (splitAt '\n' text).map withoutReturns ++ [[]] := by
    rw [splitAt_append_cons, List.map_append]
    rfl
  rw [lines_eq, hparts, if_pos (by simp), List.dropLast_concat]

theorem withoutReturns_eq_self {text : List Char} (h : '\r' ∉ text) :
    withoutReturns text = text := by
  have hkeep : text.reverse.dropWhile (· == '\r') = text.reverse := by
    cases hlast : text.reverse with
    | nil => rfl
    | cons c rest =>
      have hc : c ∈ text := by
        rw [← List.mem_reverse, hlast]
        exact List.mem_cons_self
      have hne : ¬(c == '\r') = true := fun heq => h (by rwa [← eq_of_beq heq])
      exact List.dropWhile_cons_of_neg hne
  rw [withoutReturns, dropEndWhile, hkeep, List.reverse_reverse]

/-- Nothing stands before what is added to a text, or a line feed does. -/
def EndsLine (text : List Char) : Prop :=
  text = [] ∨ text.getLast? = some '\n'

instance (text : List Char) : Decidable (EndsLine text) :=
  inferInstanceAs (Decidable (_ ∨ _))

/-- **Lines are read apart** on both sides of a line feed. -/
theorem lines_append {text : List Char} (h : EndsLine text) (rest : List Char) :
    lines (text ++ rest) = lines text ++ lines rest := by
  rcases h with rfl | hlast
  · rfl
  · obtain ⟨before, rfl⟩ := List.getLast?_eq_some_iff.mp hlast
    have hne : (splitAt '\n' rest).map withoutReturns ≠ [] := by
      rw [Ne, List.map_eq_nil_iff]
      exact splitAt_ne_nil '\n' rest
    rw [lines_append_feed, List.append_assoc, List.singleton_append, lines_eq, splitAt_append_cons,
      List.map_append, List.getLast?_append, List.getLast?_eq_some_getLast hne, Option.some_or,
      List.dropLast_append_of_ne_nil hne, lines_eq rest, List.getLast?_eq_some_getLast hne]
    split <;> rfl

/-- A text that ends a line has a line for each line feed. -/
theorem length_lines {text : List Char} (h : EndsLine text) :
    (lines text).length = count '\n' text := by
  rcases h with rfl | hlast
  · rfl
  · obtain ⟨before, rfl⟩ := List.getLast?_eq_some_iff.mp hlast
    rw [lines_append_feed, List.length_map, length_splitAt, count, count, List.count_append]
    rfl

/-- The text with a line behind it. -/
def addLine (text line : List Char) : List Char :=
  text ++ line ++ ['\n']

/-- **An added line** is one more line, and the others stay what they are. -/
theorem lines_add_line {text line : List Char} (htext : EndsLine text) (hfeed : '\n' ∉ line)
    (hreturn : '\r' ∉ line) : lines (addLine text line) = lines text ++ [line] := by
  have hline : lines (line ++ ['\n']) = [line] := by
    rw [lines_append_feed, splitAt_eq_singleton hfeed, List.map_singleton,
      withoutReturns_eq_self hreturn]
  rw [addLine, List.append_assoc, lines_append htext, hline]

/-- Lines one after the other, each with its line feed. -/
def linesText (above : List (List Char)) : List Char :=
  above.flatMap (· ++ ['\n'])

theorem linesText_cons (line : List Char) (above : List (List Char)) :
    linesText (line :: above) = line ++ '\n' :: linesText above := by
  rw [linesText, List.flatMap_cons, List.append_assoc, List.singleton_append]
  rfl

theorem linesText_append (above below : List (List Char)) :
    linesText (above ++ below) = linesText above ++ linesText below :=
  List.flatMap_append

theorem endsLine_linesText (above : List (List Char)) : EndsLine (linesText above) := by
  induction above with
  | nil => exact .inl rfl
  | cons line above ih =>
    rw [linesText_cons]
    right
    rcases ih with hnil | hlast
    · rw [hnil]
      exact List.getLast?_concat
    · obtain ⟨front, hfront⟩ := List.getLast?_eq_some_iff.mp hlast
      rw [hfront, ← List.cons_append, ← List.append_assoc]
      exact List.getLast?_concat

/-! ## Lower case -/

/-- A line feed is no letter, and it is not skipped when letters are sought. -/
theorem dropWhile_isCaseIgnorable_feed (text rest : List Char) :
    (text ++ '\n' :: rest).dropWhile isCaseIgnorable =
      text.dropWhile isCaseIgnorable ++ '\n' :: rest := by
  rw [List.dropWhile_append]
  split
  · rename_i hempty
    rw [List.isEmpty_iff.mp hempty]
    rfl
  · rfl

theorem isFinalSigma_feed_before (before earlier rest : List Char) :
    isFinalSigma (before ++ '\n' :: earlier) rest = isFinalSigma before rest := by
  unfold isFinalSigma
  simp only [dropWhile_isCaseIgnorable_feed]
  cases before.dropWhile isCaseIgnorable <;> rfl

theorem isFinalSigma_feed_after (before after rest : List Char) :
    isFinalSigma before (after ++ '\n' :: rest) = isFinalSigma before after := by
  unfold isFinalSigma
  simp only [dropWhile_isCaseIgnorable_feed]
  cases after.dropWhile isCaseIgnorable <;> rfl

/-- What stands before a line feed does not matter behind it. -/
theorem lowerAfter_behind_feed (before earlier text : List Char) :
    lowerAfter (before ++ '\n' :: earlier) text = lowerAfter before text := by
  induction text generalizing before with
  | nil => rfl
  | cons c rest ih =>
    simp only [lowerAfter, isFinalSigma_feed_before]
    rw [← List.cons_append, ih]

theorem lowerAfter_feed (before text rest : List Char) :
    lowerAfter before (text ++ '\n' :: rest) = lowerAfter before text ++ '\n' :: lower rest := by
  induction text generalizing before with
  | nil =>
    show '\n' :: lowerAfter ([] ++ '\n' :: before) rest = _
    rw [lowerAfter_behind_feed]
    rfl
  | cons c text ih =>
    simp only [List.cons_append, lowerAfter, isFinalSigma_feed_after, ih, List.append_assoc]

/-- **Letter case does not look across lines.** -/
theorem lower_feed (text rest : List Char) :
    lower (text ++ '\n' :: rest) = lower text ++ '\n' :: lower rest :=
  lowerAfter_feed [] text rest

/-! ## Occurrences -/

/-- What occurs in a text is a part of it. -/
theorem contains_iff_infix {text needle : List Char} :
    contains text needle = true ↔ needle <:+: text := by
  induction text with
  | nil =>
    rw [contains, indexOf?, List.infix_nil]
    cases needle <;> simp
  | cons c rest ih =>
    rw [contains, indexOf?, List.infix_cons_iff, ← ih, contains]
    split
    · rename_i hstart
      simp [List.isPrefixOf_iff_prefix.mp hstart]
    · rename_i hstart
      rw [List.isPrefixOf_iff_prefix] at hstart
      simp [hstart]

/-- Behind a text without a character the rest of the character's text stands. -/
theorem exists_append_of_notMem {first second front back : List Char} {c : Char} (hc : c ∉ first)
    (h : first ++ second = front ++ c :: back) : ∃ others, second = others ++ c :: back := by
  rcases List.append_eq_append_iff.mp h with ⟨others, -, hsecond⟩ | ⟨others, hfirst, hback⟩
  · exact ⟨others, hsecond⟩
  · cases others with
    | nil => exact ⟨[], hback.symm⟩
    | cons d others =>
      obtain ⟨rfl, -⟩ := List.cons.inj hback
      exact absurd (by simp [hfirst]) hc

/-- What does not begin in the front of a text occurs behind it. -/
theorem contains_behind {front needle : List Char} {c : Char} (hneedle : needle.head? = some c)
    (hc : c ∉ front) (text : List Char) : contains (front ++ text) needle = contains text needle := by
  obtain ⟨others, rfl⟩ := List.head?_eq_some_iff.mp hneedle
  rw [Bool.eq_iff_iff, contains_iff_infix, contains_iff_infix]
  constructor
  · rintro ⟨before, rest, htext⟩
    rw [List.append_assoc, List.cons_append] at htext
    obtain ⟨more, hmore⟩ := exists_append_of_notMem hc htext.symm
    exact ⟨more, rest, by rw [hmore, List.append_assoc, List.cons_append]⟩
  · exact fun h => h.trans (List.suffix_append front text).isInfix

theorem prefix_append_cons_iff {c : Char} {needle : List Char} (h : c ∉ needle)
    (before rest : List Char) : needle <+: before ++ c :: rest ↔ needle <+: before := by
  induction before generalizing needle with
  | nil =>
    cases needle with
    | nil => simp
    | cons d needle =>
      have hne : d ≠ c := fun heq => h (heq ▸ List.mem_cons_self)
      simp [hne]
  | cons e before ih =>
    cases needle with
    | nil => simp
    | cons d needle =>
      have hrest : c ∉ needle := fun hmem => h (List.mem_cons_of_mem _ hmem)
      rw [List.cons_append, List.cons_prefix_cons, List.cons_prefix_cons, ih hrest]

theorem infix_append_cons_iff {c : Char} {needle : List Char} (h : c ∉ needle)
    (before rest : List Char) :
    needle <:+: before ++ c :: rest ↔ needle <:+: before ∨ needle <:+: rest := by
  induction before with
  | nil =>
    have hstart := prefix_append_cons_iff h [] rest
    rw [List.nil_append] at hstart ⊢
    rw [List.infix_cons_iff, hstart, List.prefix_nil, List.infix_nil]
  | cons d before ih =>
    rw [List.cons_append, List.infix_cons_iff, ← List.cons_append, prefix_append_cons_iff h, ih,
      List.infix_cons_iff, or_assoc]

/-- **Occurrences lie on one side** of a line feed. -/
theorem contains_feed {needle : List Char} (h : '\n' ∉ needle) (text rest : List Char) :
    contains (text ++ '\n' :: rest) needle = (contains text needle || contains rest needle) := by
  rw [Bool.eq_iff_iff, Bool.or_eq_true, contains_iff_infix, contains_iff_infix, contains_iff_infix,
    infix_append_cons_iff h]

end CodeSurvey.Text
