import CodeSurvey.Text.Lines
import Mathlib.Data.List.TakeWhile

/-!
# Line numbers

A line is named in two ways: by the offset of one of its characters and by its place in the list of
lines. The two agree, whatever mixture of line breaks a text holds.

- `lineAt_ofText`: the number of an offset is told by the line feeds before it.
- `getElem?_splitAt`: each part between line feeds is found behind those before it.
- `count_le_length_lines`: there are as many lines as line feeds, at least.
- `getElem?_lines`: the line of a character is found under the number of its offset.
- `OnLine.lineAt_le`, `lineAt_le_succ`: no number goes far beyond the lines.
- `exists_getElem?_lines`: what begins a line is found under its number.
-/

namespace CodeSurvey.Text

/-! ## Numbers of offsets -/

/-- No line of a text starts where the text does, or before. -/
theorem lt_of_mem_startsFrom (text : List Char) :
    ∀ {offset start : Nat}, start ∈ startsFrom offset text → offset < start := by
  induction text with
  | nil => intro offset start hmem; simp [startsFrom] at hmem
  | cons c rest ih =>
    intro offset start hmem
    have hrest : start ∈ startsFrom (offset + 1) rest → offset < start := fun h => by
      have := ih h
      omega
    rw [startsFrom] at hmem
    split at hmem
    · rcases List.mem_cons.mp hmem with rfl | hmem
      · omega
      · exact hrest hmem
    · exact hrest hmem

/-- A line starts behind each line feed. -/
theorem countP_startsFrom (text : List Char) :
    ∀ offset n : Nat,
      (startsFrom offset text).countP (fun (start : Nat) => start ≤ offset + n) =
        count '\n' (text.take n) := by
  induction text with
  | nil => intro offset n; simp [startsFrom, count]
  | cons c rest ih =>
    intro offset n
    cases n with
    | zero =>
      -- All starts lie behind the offset.
      have hnone : (startsFrom offset (c :: rest)).countP
          (fun (start : Nat) => start ≤ offset + 0) = 0 := by
        refine List.countP_eq_zero.mpr fun start hmem => ?_
        have := lt_of_mem_startsFrom _ hmem
        simp
        omega
      rw [hnone]
      rfl
    | succ n =>
      have hrest := ih (offset + 1) n
      have hoffset : offset + 1 + n = offset + (n + 1) := by omega
      rw [hoffset] at hrest
      rw [startsFrom, List.take_succ_cons, count, List.count_cons, ← count, ← hrest]
      -- A line feed starts one more line, and is one more line feed.
      by_cases hc : (c == '\n') = true
      · have hstart : offset + 1 ≤ offset + (n + 1) := by omega
        rw [if_pos hc, if_pos hc, List.countP_cons, if_pos (decide_eq_true hstart)]
      · rw [if_neg hc, if_neg hc]
        rfl

/-- The line of an offset is told by the line feeds before it. -/
theorem lineAt_ofText (text : List Char) (offset : Nat) :
    (LineTable.ofText text).lineAt offset = 1 + count '\n' (text.take offset) := by
  have hstarts := countP_startsFrom text 0 offset
  rw [Nat.zero_add] at hstarts
  simp only [LineTable.lineAt, LineTable.ofText, List.countP_cons, Int.ofNat_le, hstarts]
  simp [Nat.add_comm]

/-! ## Parts between line feeds -/

theorem splitAt_ne_nil (c : Char) (text : List Char) : splitAt c text ≠ [] := by
  cases text with
  | nil => simp [splitAt]
  | cons d rest =>
    rw [splitAt]
    split
    · simp
    · split <;> simp

/-- One more character either ends the first part or belongs to it. -/
theorem splitAt_cons (c d : Char) (text : List Char) :
    splitAt c (d :: text) =
      if d == c then [] :: splitAt c text else (splitAt c text).modifyHead (d :: ·) := by
  rw [splitAt]
  split
  · rfl
  · have hne := splitAt_ne_nil c text
    cases hparts : splitAt c text with
    | nil => contradiction
    | cons part parts => rfl

/-- There is one more part than there are separators. -/
theorem length_splitAt (c : Char) (text : List Char) :
    (splitAt c text).length = count c text + 1 := by
  induction text with
  | nil => rfl
  | cons d text ih =>
    rw [splitAt_cons, count, List.count_cons, ← count]
    split
    · rw [List.length_cons, ih]
    · rw [List.length_modifyHead, ih, Nat.add_zero]

/-- The first part ends at the first separator. -/
theorem getElem?_splitAt_zero (c : Char) (text : List Char) :
    (splitAt c text)[0]? = some (beforeFirst c text) := by
  induction text with
  | nil => rfl
  | cons d text ih =>
    rw [splitAt_cons, beforeFirst, List.takeWhile_cons, ← beforeFirst, bne]
    cases d == c with
    | true => rfl
    | false => simp [List.getElem?_modifyHead, ih]

/-- What follows the last separator does not depend on what stands before another one. -/
theorem afterLast_cons_of_mem {c : Char} (d : Char) {text : List Char} (h : c ∈ text) :
    afterLast c (d :: text) = afterLast c text := by
  have hshort : (text.reverse.takeWhile (· != c)).length ≠ text.reverse.length := by
    intro hlength
    have hall := List.takeWhile_eq_self_iff.mp
      ((List.takeWhile_prefix _).eq_of_length hlength)
    simpa using hall c (List.mem_reverse.mpr h)
  rw [afterLast, List.reverse_cons, List.takeWhile_append, if_neg hshort, ← afterLast]

/-- No character of a text without separators ends a part. -/
theorem bne_of_not_mem {c : Char} {text : List Char} (h : c ∉ text) :
    ∀ d ∈ text.reverse, (d != c) = true := by
  intro d hd
  have hne : d ≠ c := fun heq => h (heq ▸ List.mem_reverse.mp hd)
  simpa using hne

/-- Without a separator everything follows the last one. -/
theorem afterLast_eq_self {c : Char} {text : List Char} (h : c ∉ text) :
    afterLast c text = text := by
  rw [afterLast, List.takeWhile_eq_self_iff.mpr (bne_of_not_mem h), List.reverse_reverse]

/-- A separator in front is not part of what follows the last one. -/
theorem afterLast_cons_self (c : Char) (text : List Char) :
    afterLast c (c :: text) = afterLast c text := by
  by_cases hmem : c ∈ text
  · exact afterLast_cons_of_mem c hmem
  · rw [afterLast_eq_self hmem, afterLast, List.reverse_cons,
      List.takeWhile_append_of_pos (bne_of_not_mem hmem)]
    simp

/-- **Parts have places.** Behind so many separators stands the part that reaches from the last of
them to the next one. The induction is on the text before; only the first part is longer for a
further character. -/
theorem getElem?_splitAt (c : Char) (before rest : List Char) :
    (splitAt c (before ++ rest))[count c before]? =
      some (afterLast c before ++ beforeFirst c rest) := by
  induction before with
  | nil => exact getElem?_splitAt_zero c rest
  | cons d before ih =>
    rw [List.cons_append, splitAt_cons, count, List.count_cons, ← count]
    by_cases hd : d = c
    · subst hd
      rw [if_pos (beq_self_eq_true d), if_pos (beq_self_eq_true d), List.getElem?_cons_succ, ih,
        afterLast_cons_self]
    · have hne : ¬(d == c) = true := by simpa using hd
      rw [if_neg hne, if_neg hne, Nat.add_zero, List.getElem?_modifyHead, ih]
      by_cases hmem : c ∈ before
      · have hcount : count c before ≠ 0 := Nat.pos_iff_ne_zero.mp (List.count_pos_iff.mpr hmem)
        rw [if_neg hcount, afterLast_cons_of_mem d hmem]
      · have hcount : count c before = 0 := List.count_eq_zero.mpr hmem
        have hmem' : c ∉ d :: before := by simp [Ne.symm hd, hmem]
        rw [if_pos hcount, afterLast_eq_self hmem, afterLast_eq_self hmem', Option.map_some,
          List.cons_append]

/-! ## Lines -/

/-- The text without carriage returns at its end. -/
def withoutReturns (text : List Char) : List Char :=
  dropEndWhile (· == '\r') text

/-- What stands between the line feeds around an offset. -/
def lineAround (text : List Char) (offset : Nat) : List Char :=
  afterLast '\n' (text.take offset) ++ beforeFirst '\n' (text.drop offset)

/-- The lines are the parts between line feeds, and an empty one at the end does not count. -/
theorem lines_eq (text : List Char) :
    lines text =
      if ((splitAt '\n' text).map withoutReturns).getLast? = some [] then
        ((splitAt '\n' text).map withoutReturns).dropLast
      else (splitAt '\n' text).map withoutReturns := by
  cases text with
  | nil => rfl
  | cons c text =>
    rw [lines, if_neg (by simp)]
    simp only [beq_iff_eq]
    rfl

/-- There is a line in front of each line feed. -/
theorem count_le_length_lines (text : List Char) : count '\n' text ≤ (lines text).length := by
  have hparts := length_splitAt '\n' text
  rw [lines_eq]
  split
  · rw [List.length_dropLast, List.length_map, hparts]
    omega
  · rw [List.length_map, hparts]
    omega

/-- A part that is more than carriage returns is a line. -/
theorem getElem?_lines_of_part {text part : List Char} {n : Nat}
    (hpart : (splitAt '\n' text)[n]? = some part) (hne : withoutReturns part ≠ []) :
    (lines text)[n]? = some (withoutReturns part) := by
  have hstripped : ((splitAt '\n' text).map withoutReturns)[n]? = some (withoutReturns part) := by
    rw [List.getElem?_map, hpart]
    rfl
  rw [lines_eq]
  split
  · rename_i hlast
    -- It is not the last part, which is empty.
    have hbefore : n < ((splitAt '\n' text).map withoutReturns).length - 1 := by
      have hlt := (List.getElem?_eq_some_iff.mp hstripped).1
      have hother : n ≠ ((splitAt '\n' text).map withoutReturns).length - 1 := by
        rintro rfl
        rw [← List.getLast?_eq_getElem?, hlast] at hstripped
        exact hne (Option.some.inj hstripped).symm
      omega
    rw [List.getElem?_dropLast, if_pos hbefore, hstripped]
  · exact hstripped

/-- Something is left of a text that holds more than carriage returns. -/
theorem withoutReturns_ne_nil {c : Char} {text : List Char} (hmem : c ∈ text) (hc : c ≠ '\r') :
    withoutReturns text ≠ [] := by
  intro hnil
  have hall := List.dropWhile_eq_nil_iff.mp (List.reverse_eq_nil_iff.mp hnil)
  have hreturn := hall c (List.mem_reverse.mpr hmem)
  exact hc (by simpa using hreturn)

/-- Where other characters than carriage returns end a text, none in front of them are dropped with
what follows. -/
theorem withoutReturns_append {text : List Char} (rest : List Char)
    (h : ∃ c, text.getLast? = some c ∧ c ≠ '\r') :
    ∃ more, withoutReturns (text ++ rest) = text ++ more := by
  obtain ⟨c, hc, hreturn⟩ := h
  obtain ⟨others, rfl⟩ := List.getLast?_eq_some_iff.mp hc
  have hkeep : (others ++ [c]).reverse.dropWhile (· == '\r') = (others ++ [c]).reverse := by
    rw [List.reverse_append, List.reverse_singleton, List.singleton_append,
      List.dropWhile_cons_of_neg (by simpa using hreturn)]
  rw [withoutReturns, dropEndWhile, List.reverse_append, List.dropWhile_append]
  split
  · exact ⟨[], by rw [hkeep, List.reverse_reverse, List.append_nil]⟩
  · exact ⟨_, by rw [List.reverse_append, List.reverse_reverse]⟩

/-- **Lines are found under their numbers.** The line around a character that breaks no line stands
in the list of lines, under the number of the offset. -/
theorem getElem?_lines {text : List Char} {offset : Nat} {c : Char} (hc : text[offset]? = some c)
    (hfeed : c ≠ '\n') (hreturn : c ≠ '\r') :
    (lines text)[(LineTable.ofText text).lineAt offset - 1]? =
      some (withoutReturns (lineAround text offset)) := by
  have hpart := getElem?_splitAt '\n' (text.take offset) (text.drop offset)
  rw [List.take_append_drop] at hpart
  -- The character itself stands in the part.
  have hmem : c ∈ lineAround text offset := by
    obtain ⟨hlt, hget⟩ := List.getElem?_eq_some_iff.mp hc
    have hne : (c != '\n') = true := by simpa using hfeed
    rw [lineAround, List.drop_eq_getElem_cons hlt, hget, beforeFirst, List.takeWhile_cons, hne]
    simp
  rw [lineAt_ofText, Nat.add_sub_cancel_left]
  exact getElem?_lines_of_part hpart (withoutReturns_ne_nil hmem hreturn)

/-- The number of a character that breaks no line is that of a line. -/
theorem lineAt_le_length_lines {text : List Char} {offset : Nat} {c : Char}
    (hc : text[offset]? = some c) (hfeed : c ≠ '\n') (hreturn : c ≠ '\r') :
    (LineTable.ofText text).lineAt offset ≤ (lines text).length := by
  obtain ⟨hlt, -⟩ := List.getElem?_eq_some_iff.mp (getElem?_lines hc hfeed hreturn)
  omega

/-! ## Numbers in order -/

/-- Numbers grow with the offsets. -/
theorem lineAt_mono (text : List Char) {first second : Nat} (h : first ≤ second) :
    (LineTable.ofText text).lineAt first ≤ (LineTable.ofText text).lineAt second := by
  have hcount : count '\n' (text.take first) ≤ count '\n' (text.take second) :=
    (List.take_prefix_take_left h).sublist.count_le '\n'
  rw [lineAt_ofText, lineAt_ofText]
  omega

/-- From one offset to another the number grows by the line feeds between them. -/
theorem lineAt_add (text : List Char) (start n : Nat) :
    (LineTable.ofText text).lineAt (start + n : Nat) =
      (LineTable.ofText text).lineAt start + count '\n' ((text.drop start).take n) := by
  rw [lineAt_ofText, lineAt_ofText, List.take_add, count, List.count_append, Nat.add_assoc]
  rfl

/-- No number is greater than that of the empty line behind the last one. -/
theorem lineAt_le_succ (text : List Char) (offset : Nat) :
    (LineTable.ofText text).lineAt offset ≤ (lines text).length + 1 := by
  have hcount : count '\n' (text.take offset) ≤ count '\n' text :=
    (List.take_sublist offset text).count_le '\n'
  have hlines := count_le_length_lines text
  rw [lineAt_ofText]
  omega

/-- At the offset or behind it stands a character of a line: anything but carriage returns. -/
def OnLine (text : List Char) (offset : Nat) : Prop :=
  ∃ i c, offset ≤ i ∧ text[i]? = some c ∧ c ≠ '\r'

/-- Where a character of a line follows, the number is that of a line. -/
theorem OnLine.lineAt_le {text : List Char} {offset : Nat} (h : OnLine text offset) :
    (LineTable.ofText text).lineAt offset ≤ (lines text).length := by
  obtain ⟨i, c, hle, hc, hreturn⟩ := h
  refine Nat.le_trans (lineAt_mono text hle) ?_
  by_cases hfeed : c = '\n'
  · -- The line feed itself ends a line, and there are as many lines as line feeds.
    subst hfeed
    have hnext : count '\n' (text.take (i + 1)) = count '\n' (text.take i) + 1 := by
      rw [List.take_add_one, hc, count, List.count_append]
      rfl
    have hcount : count '\n' (text.take (i + 1)) ≤ count '\n' text :=
      (List.take_sublist (i + 1) text).count_le '\n'
    have hlines := count_le_length_lines text
    rw [lineAt_ofText]
    omega
  · exact lineAt_le_length_lines hc hfeed hreturn

/-- What stands in a part of a text stands in the text. -/
theorem OnLine.of_take {text : List Char} {offset stop : Nat} (h : OnLine (text.take stop) offset) :
    OnLine text offset := by
  obtain ⟨i, c, hle, hc, hreturn⟩ := h
  rw [List.getElem?_take] at hc
  split at hc
  · exact ⟨i, c, hle, hc, hreturn⟩
  · contradiction

/-! ## Lines by their beginnings -/

/-- A text that begins a line, holds no line feed and neither begins nor ends with a carriage return
begins the line with its number. -/
theorem exists_getElem?_lines {before start : List Char} (rest : List Char)
    (hbefore : before = [] ∨ before.getLast? = some '\n') (hfeed : '\n' ∉ start)
    (hfirst : ∃ c, start.head? = some c ∧ c ≠ '\r')
    (hlast : ∃ c, start.getLast? = some c ∧ c ≠ '\r') :
    let text := before ++ (start ++ rest)
    ∃ more, (lines text)[(LineTable.ofText text).lineAt before.length - 1]? =
      some (start ++ more) := by
  intro text
  obtain ⟨c, hc, hreturn⟩ := hfirst
  obtain ⟨others, rfl⟩ := List.head?_eq_some_iff.mp hc
  have hcfeed : c ≠ '\n' := by
    rintro rfl
    exact hfeed List.mem_cons_self
  have hget : (before ++ (c :: others ++ rest))[before.length]? = some c := by simp
  -- Nothing of the line stands before its beginning.
  have hnothing : afterLast '\n' before = [] := by
    rcases hbefore with rfl | hbefore
    · rfl
    · obtain ⟨front, rfl⟩ := List.getLast?_eq_some_iff.mp hbefore
      simp [afterLast]
  have hall : ∀ d ∈ c :: others, (d != '\n') = true := by
    intro d hd
    have hne : d ≠ '\n' := fun heq => hfeed (heq ▸ hd)
    simpa using hne
  have haround : lineAround (before ++ (c :: others ++ rest)) before.length =
      c :: others ++ beforeFirst '\n' rest := by
    rw [lineAround, List.take_left, List.drop_left, hnothing, List.nil_append, beforeFirst,
      List.takeWhile_append_of_pos hall]
    rfl
  obtain ⟨more, hmore⟩ := withoutReturns_append (beforeFirst '\n' rest) hlast
  refine ⟨more, ?_⟩
  rw [getElem?_lines hget hcfeed hreturn, haround, hmore]

end CodeSurvey.Text
