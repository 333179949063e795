import CodeSurvey.Proofs.LineNumbers
import CodeSurvey.Proofs.Replacements
import Mathlib.Algebra.GroupWithZero.Nat

/-!
# Patterns that see one line

Some patterns read no line feed and look no further than to the one before and the one behind the
place where they are tried. Whether and what they match there is settled by the line around the
place. So a text that is cut at its line feeds has as many matches of such a pattern as its lines.

- `seesLine`: such patterns, as far as that can be told from how they are written.
- `SameLine`: two states, of two texts perhaps, that have the same line around them.
- `lineDecides`: from such states a search comes to such states.
- `countsByLine`: the matches behind a place are those in the rest of its line and in the lines
  below.
- `length_findAll_lines`: the matches in a text are those in its lines.
-/

namespace CodeSurvey

/-! ## Texts up to a line feed -/

namespace Text

variable {c d : Char} {text other read rest : List Char}

theorem beforeFirst_cons_self (c : Char) (text : List Char) : beforeFirst c (c :: text) = [] := by
  simp [beforeFirst]

theorem beforeFirst_cons_of_ne (h : d ≠ c) (text : List Char) :
    beforeFirst c (d :: text) = d :: beforeFirst c text := by
  simp [beforeFirst, h]

theorem notMem_beforeFirst (c : Char) (text : List Char) : c ∉ beforeFirst c text := by
  intro hc
  have hne := List.mem_takeWhile_imp hc
  simp at hne

theorem beforeFirst_append_of_notMem (h : c ∉ read) (rest : List Char) :
    beforeFirst c (read ++ rest) = read ++ beforeFirst c rest := by
  rw [beforeFirst, List.takeWhile_append_of_pos, beforeFirst]
  intro d hd
  rw [bne_iff_ne]
  rintro rfl
  exact h hd

theorem beforeFirst_beforeFirst (c : Char) (text : List Char) :
    beforeFirst c (beforeFirst c text) = beforeFirst c text := by
  have hwhole := beforeFirst_append_of_notMem (notMem_beforeFirst c text) []
  have hnil : beforeFirst c [] = [] := rfl
  rwa [List.append_nil, hnil, List.append_nil] at hwhole

/-- Where two texts are the same before a character, both start with it or end, or both start with
the same other character. -/
theorem beforeFirst_cases (h : beforeFirst c text = beforeFirst c other) :
    (beforeFirst c text = [] ∧ beforeFirst c other = []) ∨
      ∃ d text' other', d ≠ c ∧ text = d :: text' ∧ other = d :: other' ∧
        beforeFirst c text' = beforeFirst c other' := by
  cases hfirst : beforeFirst c text with
  | nil => exact .inl ⟨rfl, h.symm.trans hfirst⟩
  | cons d front =>
    have hcons (part : List Char) (hpart : beforeFirst c part = d :: front) :
        ∃ part', d ≠ c ∧ part = d :: part' ∧ beforeFirst c part' = front := by
      cases part with
      | nil => contradiction
      | cons e part' =>
        by_cases he : e = c
        · rw [he, beforeFirst_cons_self] at hpart
          contradiction
        · rw [beforeFirst_cons_of_ne he] at hpart
          obtain ⟨rfl, hpart'⟩ := List.cons.inj hpart
          exact ⟨part', he, rfl, hpart'⟩
    obtain ⟨text', hd, htext, hfront⟩ := hcons text hfirst
    obtain ⟨other', -, hother, hfront'⟩ := hcons other (h.symm.trans hfirst)
    exact .inr ⟨d, text', other', hd, htext, hother, hfront.trans hfront'.symm⟩

/-- The first part of a text stands before the first separator. -/
theorem splitAt_eq_beforeFirst_cons (c : Char) (text : List Char) :
    splitAt c text = beforeFirst c text :: (splitAt c text).tail := by
  have hfirst := getElem?_splitAt_zero c text
  cases hparts : splitAt c text with
  | nil => exact absurd hparts (splitAt_ne_nil c text)
  | cons part parts =>
    rw [hparts] at hfirst
    rw [← Option.some.inj hfirst, List.tail_cons]

/-- What stands before the first separator does not matter for the parts behind it. -/
theorem tail_splitAt_append (h : c ∉ read) (rest : List Char) :
    (splitAt c (read ++ rest)).tail = (splitAt c rest).tail := by
  induction read with
  | nil => rfl
  | cons d read ih =>
    rw [List.mem_cons, not_or] at h
    have hne : ¬ (d == c) = true := by simpa using Ne.symm h.1
    rw [List.cons_append, splitAt_cons, if_neg hne, ← ih h.2]
    cases splitAt c (read ++ rest) <;> rfl

end Text

namespace Pattern

open Text

/-! ## Patterns -/

/-- Whether all that a pattern reads and looks at stands on the line around the place, as far as
that can be told from how it is written. -/
def seesLine : Pattern → Bool
  | empty => true
  | one set => !set.mem '\n'
  | seq p q | alt p q => p.seesLine && q.seesLine
  | capture _ p | ahead _ p | atomic p => p.seesLine
  | anchor a => a == .lineStart || a == .lineEnd || a == .wordEdge
  -- Further back than one character another line might begin.
  | behind _ width p => width == 1 && p.seesLine && p.surely fun _ => true
  | rounds _ _ _ _ | again _ _ | whether _ _ _ => false

/-! ## States -/

/-- The states have the same line around them, and they lie as far behind two places, one of each
text. What they have kept does not matter. -/
structure SameLine (start start' : Nat) (s t : State) : Prop where
  before : beforeFirst '\n' s.before = beforeFirst '\n' t.before
  after : beforeFirst '\n' s.after = beforeFirst '\n' t.after
  offset : s.offset + start' = t.offset + start

variable {p : Pattern} {start start' : Nat} {s t : State}

theorem SameLine.keep (h : SameLine start start' s t) (kept kept' : List Capture) :
    SameLine start start' { s with kept } { t with kept := kept' } :=
  ⟨h.before, h.after, h.offset⟩

/-- No word character stands where the line ends. -/
theorem wordSide_eq {text other : List Char} (h : beforeFirst '\n' text = beforeFirst '\n' other) :
    (text.head?.map isWord).getD false = (other.head?.map isWord).getD false := by
  have hend (part : List Char) (hpart : beforeFirst '\n' part = []) :
      (part.head?.map isWord).getD false = false := by
    cases part with
    | nil => rfl
    | cons d part =>
      have hd : d = '\n' := by
        by_contra hne
        rw [beforeFirst_cons_of_ne hne] at hpart
        contradiction
      rw [hd]
      rfl
  rcases beforeFirst_cases h with ⟨htext, hother⟩ | ⟨d, text', other', -, rfl, rfl, -⟩
  · rw [hend text htext, hend other hother]
  · rfl

/-- A line starts or ends where nothing of it is left. -/
theorem lineSide_eq (text : List Char) :
    (text.isEmpty || text.head? == some '\n') = (beforeFirst '\n' text).isEmpty := by
  cases text with
  | nil => rfl
  | cons d text =>
    by_cases hd : d = '\n'
    · simp [hd, beforeFirst_cons_self]
    · simp [hd, beforeFirst_cons_of_ne hd]

theorem SameLine.holds (h : SameLine start start' s t) {a : Anchor}
    (ha : (anchor a).seesLine = true) : s.holds a = t.holds a := by
  cases a with
  | lineStart => simp only [State.holds, lineSide_eq, h.before]
  | lineEnd => simp only [State.holds, lineSide_eq, h.after]
  | wordEdge =>
    simp only [State.holds, State.wordSides, wordSide_eq h.before, wordSide_eq h.after]
  | textStart => contradiction
  | textEnd => contradiction
  | lastLineEnd => contradiction
  | noWordEdge => contradiction

/-- One character back, the states have the same line around them, or both would have to look over
a line feed or the start of a text. -/
theorem SameLine.back? (h : SameLine start start' s t) :
    (∃ u v, s.back? 1 = some u ∧ t.back? 1 = some v ∧ SameLine u.offset v.offset u v) ∨
      ((∀ u ∈ s.back? 1, beforeFirst '\n' u.after = []) ∧
        ∀ u ∈ t.back? 1, beforeFirst '\n' u.after = []) := by
  have hend (s : State) (hs : beforeFirst '\n' s.before = []) :
      ∀ u ∈ s.back? 1, beforeFirst '\n' u.after = [] := by
    intro u hu
    rw [Option.mem_def, State.back?] at hu
    split at hu
    · rename_i d rest hbefore
      obtain rfl := Option.some.inj hu
      by_contra hne
      have hd : d ≠ '\n' := by
        rintro rfl
        exact hne (beforeFirst_cons_self _ _)
      rw [hbefore, beforeFirst_cons_of_ne hd] at hs
      contradiction
    · contradiction
  rcases beforeFirst_cases h.before with ⟨hs, ht⟩ | ⟨d, before, before', hd, hs, ht, hbefore⟩
  · exact .inr ⟨hend s hs, hend t ht⟩
  · refine .inl ⟨⟨before, d :: s.after, s.offset - 1, s.kept⟩,
      ⟨before', d :: t.after, t.offset - 1, t.kept⟩, ?_, ?_, hbefore, ?_, Nat.add_comm _ _⟩
    · simp [State.back?, hs]
    · simp [State.back?, ht]
    · rw [beforeFirst_cons_of_ne hd, beforeFirst_cons_of_ne hd, h.after]

/-! ## Searches -/

/-- Two searches come to nothing both, or to states with the same line around them. -/
abbrev AlikeOnLine (start start' : Nat) : Option State → Option State → Prop :=
  Option.Rel (SameLine start start')

theorem AlikeOnLine.cases {found found' : Option State}
    (h : AlikeOnLine start start' found found') :
    (found = none ∧ found' = none) ∨
      ∃ u v, found = some u ∧ found' = some v ∧ SameLine start start' u v := by
  cases h with
  | some hsame => exact .inr ⟨_, _, rfl, rfl, hsame⟩
  | none => exact .inl ⟨rfl, rfl⟩

theorem AlikeOnLine.isSome_eq {found found' : Option State}
    (h : AlikeOnLine start start' found found') : found.isSome = found'.isSome := by
  rcases h.cases with ⟨rfl, rfl⟩ | ⟨u, v, rfl, rfl, -⟩ <;> rfl

theorem alikeOnLine_some {u v : State} (h : SameLine start start' u v) :
    AlikeOnLine start start' (some u) (some v) :=
  .some h

/-- The goals come to nothing both, or to states with the same line around them, wherever they
start from such states. -/
def GoalsAlike (start start' : Nat) (goal goal' : Goal) : Prop :=
  ∀ u v, SameLine start start' u v → AlikeOnLine start start' (goal u) (goal' v)

variable {goal goal' : Goal}

/-- What is looked for matters only in so far as it is found. -/
theorem GoalsAlike.look (hgoal : GoalsAlike start start' goal goal')
    (h : SameLine start start' s t) (positive : Bool) {found found' : Option State} :
    found.isSome = found'.isSome → AlikeOnLine start start'
      (match found with
        | some u => if positive then goal { s with kept := u.kept } else none
        | none => if positive then none else goal s)
      (match found' with
        | some u => if positive then goal' { t with kept := u.kept } else none
        | none => if positive then none else goal' t) := by
  intro hfound
  cases found with
  | none =>
    rw [Option.isSome_none, eq_comm, Option.isSome_eq_false_iff, Option.isNone_iff_eq_none]
      at hfound
    subst hfound
    cases positive
    · exact hgoal s t h
    · exact .none
  | some u =>
    rw [Option.isSome_some, eq_comm, Option.isSome_iff_exists] at hfound
    obtain ⟨v, rfl⟩ := hfound
    cases positive
    · exact .none
    · exact hgoal _ _ (h.keep _ _)

/-- A character other than a line feed is read from both states or from none. -/
theorem GoalsAlike.one {set : CharSet} (hgoal : GoalsAlike start start' goal goal')
    (h : SameLine start start' s t) (hset : set.mem '\n' = false) :
    AlikeOnLine start start' ((one set).run s goal) ((one set).run t goal') := by
  have hend (s : State) (goal : Goal) (hs : beforeFirst '\n' s.after = []) :
      (Pattern.one set).run s goal = none := by
    rw [run]
    split
    · rename_i c rest hafter
      have hc : c = '\n' := by
        by_contra hne
        rw [hafter, beforeFirst_cons_of_ne hne] at hs
        contradiction
      rw [hc, hset]
      rfl
    · rfl
  rcases beforeFirst_cases h.after with ⟨hs, ht⟩ | ⟨c, rest, rest', hc, hs, ht, hrest⟩
  · rw [hend s goal hs, hend t goal' ht]
    exact .none
  · simp only [run, hs, ht]
    split
    · refine hgoal _ _ ⟨?_, hrest, ?_⟩
      · rw [beforeFirst_cons_of_ne hc, beforeFirst_cons_of_ne hc, h.before]
      · have hoffset := h.offset
        show s.offset + 1 + start' = t.offset + 1 + start
        omega
    · exact .none

/-- A pattern that comes alike from states with the same line around them. -/
def LineDecides (p : Pattern) : Prop :=
  ∀ {start start' s t goal goal'}, SameLine start start' s t → GoalsAlike start start' goal goal' →
    AlikeOnLine start start' (p.run s goal) (p.run t goal')

/-- What has to be read is not read at the end of a line. -/
theorem LineDecides.run_lineEnd (hp : p.LineDecides) (hsurely : p.surely (fun _ => true) = true)
    (hend : beforeFirst '\n' s.after = []) : p.run s some = none := by
  -- As far as the pattern can see, the text might as well end here.
  have hempty : SameLine s.offset s.offset s { s with after := [] } := ⟨rfl, hend, rfl⟩
  have hnil : p.run { s with after := [] } some = none := refuses_nil hsurely _ _ _ _
  rcases (hp hempty fun _ _ => alikeOnLine_some).cases with ⟨hnone, -⟩ | ⟨_, _, -, hsome, -⟩
  · exact hnone
  · rw [hnil] at hsome
    contradiction

/-- One character back the pattern is found from both states or from none. -/
theorem LineDecides.back (hp : p.LineDecides) (hsurely : p.surely (fun _ => true) = true)
    (h : SameLine start start' s t) :
    ((s.back? 1).bind (p.run · some)).isSome = ((t.back? 1).bind (p.run · some)).isSome := by
  rcases h.back? with ⟨u, v, hs, ht, huv⟩ | ⟨hs, ht⟩
  · rw [hs, ht]
    exact (hp huv fun _ _ => alikeOnLine_some).isSome_eq
  · have hnone (s : State) (hs : ∀ u ∈ s.back? 1, beforeFirst '\n' u.after = []) :
        (s.back? 1).bind (p.run · some) = none :=
      Option.bind_eq_none_iff.mpr fun u hu => hp.run_lineEnd hsurely (hs u hu)
    rw [hnone s hs, hnone t ht]

/-- **Lines decide.** From states with the same line around them, a pattern that sees one line comes
to such states, for goals that do. The induction is on the pattern. -/
theorem lineDecides (hp : p.seesLine = true) : p.LineDecides := by
  induction p with
  | empty => exact fun h hgoal => hgoal _ _ h
  | one set => exact fun h hgoal => hgoal.one h (by simpa [seesLine] using hp)
  | seq p q ihp ihq =>
    rw [seesLine, Bool.and_eq_true] at hp
    exact fun h hgoal => ihp hp.1 h fun u v huv => ihq hp.2 huv hgoal
  | alt p q ihp ihq =>
    rw [seesLine, Bool.and_eq_true] at hp
    intro start start' s t goal goal' h hgoal
    rw [run, run]
    rcases (ihp hp.1 h hgoal).cases with ⟨hs, ht⟩ | ⟨u, v, hs, ht, huv⟩
    · rw [hs, ht]
      exact ihq hp.2 h hgoal
    · rw [hs, ht]
      exact alikeOnLine_some huv
  | capture key p ih => exact fun h hgoal => ih hp h fun u v huv => hgoal _ _ (huv.keep _ _)
  | anchor a =>
    intro start start' s t goal goal' h hgoal
    rw [run, run, h.holds hp]
    split
    · exact hgoal s t h
    · exact .none
  | ahead positive p ih =>
    intro start start' s t goal goal' h hgoal
    exact hgoal.look h positive (ih hp h fun _ _ => alikeOnLine_some).isSome_eq
  | behind positive width p ih =>
    intro start start' s t goal goal' h hgoal
    simp only [seesLine, Bool.and_eq_true, beq_iff_eq] at hp
    obtain ⟨⟨rfl, hline⟩, hsurely⟩ := hp
    -- Over the start of the line nothing is found, since what is there is a line feed.
    have hback := LineDecides.back (ih hline) hsurely h
    exact hgoal.look h positive hback
  | atomic p ih =>
    intro start start' s t goal goal' h hgoal
    rw [run, run]
    rcases (ih hp h fun _ _ => alikeOnLine_some).cases with ⟨hs, ht⟩ | ⟨u, v, hs, ht, huv⟩
    · rw [hs, ht]
      exact .none
    · rw [hs, ht]
      exact hgoal u v huv
  | rounds => contradiction
  | again => contradiction
  | whether => contradiction

/-! ## Matches -/

/-- In a text and in its line a pattern matches at the same places, over as many characters. -/
theorem matchHere?_sameLine (hp : p.seesLine = true) (h : SameLine start start' s t)
    (subject subject' : List Char) :
    (p.matchHere? subject s false = none ∧ p.matchHere? subject' t false = none) ∨
      ∃ m n, p.matchHere? subject s false = some m ∧ p.matchHere? subject' t false = some n ∧
        m.stop + start' = n.stop + start := by
  have hgoal : GoalsAlike start start' some some := fun _ _ => alikeOnLine_some
  rcases (lineDecides hp h hgoal).cases with ⟨hs, ht⟩ | ⟨u, v, hs, ht, huv⟩
  · exact .inl ⟨congrArg (Option.map _) hs, congrArg (Option.map _) ht⟩
  · refine .inr ⟨⟨subject, s.offset, u.offset, u.kept⟩, ⟨subject', t.offset, v.offset, v.kept⟩,
      congrArg (Option.map _) hs, congrArg (Option.map _) ht, huv.offset⟩

/-- The matches of a pattern in each of some texts. -/
def countOver (p : Pattern) (texts : List (List Char)) : Nat :=
  (texts.map fun text => (p.findAll text).length).sum

/-- Behind a place there are the matches in what is left of its line, and those in the lines
below. -/
def CountsByLine (p : Pattern) (before after : List Char) : Prop :=
  (p.foundBehind before after).length =
    (p.foundBehind (beforeFirst '\n' before) (beforeFirst '\n' after)).length
      + p.countOver (splitAt '\n' after).tail

/-- What the matches behind a part of a line are settles what those behind its start are, if both
in the text and in the line the same number of matches comes first. -/
theorem countsByLine_append {before read rest : List Char} (found found' : List Match)
    (hread : '\n' ∉ read) (hlength : found.length = found'.length)
    (htext : p.foundBehind before (read ++ rest) =
      found ++ p.foundBehind (read.reverse ++ before) rest)
    (hline : p.foundBehind (beforeFirst '\n' before) (read ++ beforeFirst '\n' rest) =
      found' ++ p.foundBehind (read.reverse ++ beforeFirst '\n' before) (beforeFirst '\n' rest))
    (ih : p.CountsByLine (read.reverse ++ before) rest) : p.CountsByLine before (read ++ rest) := by
  have hback : '\n' ∉ read.reverse := fun h => hread (List.mem_reverse.mp h)
  rw [CountsByLine, beforeFirst_append_of_notMem hback] at ih
  rw [CountsByLine, beforeFirst_append_of_notMem hread, htext, hline, tail_splitAt_append hread,
    List.length_append, List.length_append, ih, hlength, Nat.add_assoc]

/-- Behind a line feed the next line begins. -/
theorem countsByLine_lineFeed {before rest : List Char}
    (hsurely : p.surely (fun _ => true) = true)
    (htext : p.foundBehind before ('\n' :: rest) = p.foundBehind ('\n' :: before) rest)
    (ih : p.CountsByLine ('\n' :: before) rest) : p.CountsByLine before ('\n' :: rest) := by
  have hbelow : (splitAt '\n' ('\n' :: rest)).tail = splitAt '\n' rest := by
    rw [splitAt_cons, if_pos (beq_self_eq_true _), List.tail_cons]
  rw [CountsByLine, beforeFirst_cons_self] at ih
  rw [CountsByLine, htext, ih, beforeFirst_cons_self, foundBehind_nil hsurely, hbelow,
    List.length_nil, Nat.zero_add, splitAt_eq_beforeFirst_cons '\n' rest, countOver, countOver,
    List.map_cons, List.sum_cons, List.tail_cons]
  rfl

/-- What a match of a line reads, a match as long reads in the text. -/
theorem exists_read_of_line {text read rest read' rest' : List Char} (htext : text = read ++ rest)
    (hline : beforeFirst '\n' text = read' ++ rest') (hlength : read.length = read'.length) :
    '\n' ∉ read ∧ read' = read ∧ rest' = beforeFirst '\n' rest := by
  have hfront : read' ++ (rest' ++ text.dropWhile (· != '\n')) = read ++ rest := by
    rw [← List.append_assoc, ← hline, ← htext]
    exact List.takeWhile_append_dropWhile
  -- Both are as long a part of the text.
  obtain ⟨rfl, -⟩ := List.append_inj hfront hlength.symm
  have hread : '\n' ∉ read' := fun h =>
    notMem_beforeFirst '\n' text (hline ▸ List.mem_append_left rest' h)
  rw [htext, beforeFirst_append_of_notMem hread] at hline
  exact ⟨hread, rfl, (List.append_cancel_left hline).symm⟩

/-- **Line by line.** The induction is on what stands behind the place: either the pattern does not
match there, neither in the text nor in the line, or it reads as much in both. -/
theorem countsByLine (hp : p.seesLine = true) (hsurely : p.surely (fun _ => true) = true)
    (before after : List Char) : p.CountsByLine before after := by
  induction hlength : after.length using Nat.strong_induction_on generalizing before after with
  | _ n ih =>
    cases after with
    | nil =>
      have hend : beforeFirst '\n' [] = [] := rfl
      rw [CountsByLine, hend, foundBehind_nil hsurely, foundBehind_nil hsurely]
      rfl
    | cons c rest =>
      rw [List.length_cons] at hlength
      have hplace : SameLine before.length (beforeFirst '\n' before).length
          ⟨before, c :: rest, before.length, []⟩
          ⟨beforeFirst '\n' before, beforeFirst '\n' (c :: rest),
            (beforeFirst '\n' before).length, []⟩ :=
        ⟨(beforeFirst_beforeFirst _ _).symm, (beforeFirst_beforeFirst _ _).symm, Nat.add_comm _ _⟩
      rcases matchHere?_sameLine hp hplace (before.reverse ++ c :: rest)
          ((beforeFirst '\n' before).reverse ++ beforeFirst '\n' (c :: rest)) with
        ⟨hnone, hnone'⟩ | ⟨m, n, hm, hn, hstops⟩
      · have htext := foundBehind_of_none hsurely hnone
        -- The next place is on the same line, unless a line feed comes in between.
        by_cases hc : c = '\n'
        · subst hc
          exact countsByLine_lineFeed hsurely htext (ih _ (by omega) _ rest rfl)
        · rw [beforeFirst_cons_of_ne hc] at hnone'
          have hline := foundBehind_of_none hsurely hnone'
          have hread : '\n' ∉ [c] := by simpa using Ne.symm hc
          exact countsByLine_append [] [] hread rfl htext hline (ih _ (by omega) _ rest rfl)
      · obtain ⟨read, others, hparts, hsome, hstop, htext⟩ := exists_foundBehind_cons hsurely hm
        obtain ⟨read', others', hparts', -, hstop', hline⟩ := exists_foundBehind_cons hsurely hn
        -- Both matches read the same characters, so the line goes on behind them.
        obtain ⟨hread, rfl, rfl⟩ := exists_read_of_line hparts hparts' (by omega)
        have hless : others.length < rest.length + 1 := by
          have hsize := congrArg List.length hparts
          have hpos := List.length_pos_of_ne_nil hsome
          rw [List.length_cons, List.length_append] at hsize
          omega
        rw [hparts'] at hline
        rw [hparts] at htext ⊢
        exact countsByLine_append [m] [n] hread rfl htext hline
          (ih _ (hlength ▸ hless) _ others rfl)

/-- **Matches line by line.** A text has as many matches of a pattern that reads something and sees
one line as its lines have. -/
theorem length_findAll_lines (hp : p.seesLine = true)
    (hsurely : p.surely (fun _ => true) = true) (text : List Char) :
    (p.findAll text).length = p.countOver (splitAt '\n' text) := by
  have hcounts : (p.findAll text).length =
      (p.findAll (beforeFirst '\n' text)).length + p.countOver (splitAt '\n' text).tail :=
    countsByLine hp hsurely [] text
  rw [hcounts, splitAt_eq_beforeFirst_cons '\n' text]
  rfl

end Pattern

end CodeSurvey
