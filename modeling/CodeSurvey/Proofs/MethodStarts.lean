import CodeSurvey.Proofs.MethodExtents
import CodeSurvey.Proofs.Places
import CodeSurvey.Proofs.Squeezing

/-!
# Where methods start

A method is sought at the start of a line, behind an indentation. What is kept of it begins with
what the search calls its head. A head without decorators and modifiers may begin with blanks of any
kind, line breaks among them, so it begins with the blank lines in front of the method if there are
any.

- `run_many_greedy`: rounds of a set read as many characters as they can.
- `run_fronted_of_refuses`, `isSome_run_fronted`: parts in front that may be left out.
- `exists_reads_head`, `exists_headText`: what a method is found by, as states and as texts.
- `eq_nil_of_bareHead`: a bare head is found behind all blank lines in front of it.
- `methods_start`: where the code of a method starts.
- `method_starts_in_blanks`: a method whose code starts in a blank line.
-/

namespace CodeSurvey

namespace Pattern

variable {p tail : Pattern} {s t : State} {goal : Goal} {final : State} {text : List Char}

/-! ## As many characters as possible -/

/-- A character of a set is read where it comes next. -/
theorem run_one {set : CharSet} {c : Char} {rest : List Char} (hafter : s.after = c :: rest)
    (hmem : set.mem c = true) (goal : Goal) : (one set).run s goal = goal (s.pass c rest) := by
  rw [run, hafter]
  simp only [hmem, if_true]
  rfl

/-- Where rounds of a set lead on, they have read as many characters as they can: one more, and
nothing would lead on. The induction is on the fuel; each round takes one element of it. -/
theorem upToRounds_greedy {set : CharSet} (fuel : List Char) :
    ∀ (last : Option Nat) (s : State), s.after.length < fuel.length →
      (∀ place, last = some place → place < s.offset) →
      upToRounds (one set).run true fuel none last s goal = some final →
      ∃ text u, Passes s text u ∧ (∀ c ∈ text, set.mem c = true) ∧ u.kept = s.kept ∧
        goal u = some final ∧
        ∀ c rest, u.after = c :: rest → set.mem c = true → goal (u.pass c rest) = none := by
  induction fuel with
  | nil => exact fun _ _ hfuel => absurd hfuel (Nat.not_lt_zero _)
  | cons x fuel ih =>
    intro last s hfuel hlast h
    rw [upToRounds_cons _ x fuel hlast] at h
    cases hround : (one set).run s fun t =>
        upToRounds (one set).run true fuel none (some s.offset) t goal with
    | some t =>
      -- The next character is read, and the rounds behind it are as greedy.
      rw [hround, Option.some_or] at h
      obtain ⟨u, ⟨c, rest, hafter, hmem, rfl⟩, hmore⟩ := exists_reads_of_run _ s _ t hround
      rw [h] at hmore
      have hshort : rest.length < fuel.length := by
        rw [hafter, List.length_cons, List.length_cons] at hfuel
        omega
      obtain ⟨text, v, hpasses, htext, hkept, hgoal, hgreedy⟩ :=
        ih (some s.offset) (s.pass c rest) hshort
          (by rintro place ⟨⟩; exact Nat.lt_succ_self _) hmore
      refine ⟨[c] ++ text, v, (Passes.pass hafter).trans hpasses, ?_, hkept, hgoal, hgreedy⟩
      exact List.forall_mem_cons.mpr ⟨hmem, htext⟩
    | none =>
      rw [hround, Option.none_or] at h
      refine ⟨[], s, Passes.refl s s.kept, fun c hc => absurd hc List.not_mem_nil, rfl, h, ?_⟩
      intro c rest hafter hmem
      rw [run_one hafter hmem] at hround
      obtain ⟨y, fuel, rfl⟩ : ∃ y more, fuel = y :: more := by
        apply List.exists_cons_of_length_pos
        rw [hafter, List.length_cons, List.length_cons] at hfuel
        omega
      rw [upToRounds_cons _ y fuel (by rintro place ⟨⟩; exact Nat.lt_succ_self _)] at hround
      exact (Option.or_eq_none_iff.mp hround).2

/-- **Greed.** A pattern behind rounds of a set runs behind as many characters of the set as leave
it a match. -/
theorem run_many_greedy {set : CharSet} (h : (many (one set) ++ p).run s goal = some final) :
    ∃ text u, Passes s text u ∧ (∀ c ∈ text, set.mem c = true) ∧ u.kept = s.kept ∧
      p.run u goal = some final ∧
      ∀ c rest, u.after = c :: rest → set.mem c = true → p.run (u.pass c rest) goal = none :=
  upToRounds_greedy (' ' :: s.after) none s (Nat.lt_succ_self _) (by simp) h

/-! ## Parts in front -/

/-- A pattern with others in front of it, of each of which there need be no round. -/
def fronted (fronts : List (Option Nat × Pattern)) (tail : Pattern) : Pattern :=
  fronts.foldr (fun front p => rounds true 0 front.1 front.2 ++ p) tail

/-- Rounds of what is refused read nothing. -/
theorem Refuses.run_rounds (h : p.Refuses s.after) (most : Option Nat) (goal : Goal) :
    (rounds true 0 most p).run s goal = goal s := by
  show upToRounds p.run true (' ' :: s.after) (most.map (· - 0)) none s goal = _
  have hround := h s.before s.offset s.kept
  rw [upToRounds]
  split
  · rfl
  · simp only [hround, if_true]

/-- Rounds need not read anything. -/
theorem isSome_run_rounds (p : Pattern) (most : Option Nat) (h : (goal s).isSome = true) :
    ((rounds true 0 most p).run s goal).isSome = true := by
  show (upToRounds p.run true (' ' :: s.after) (most.map (· - 0)) none s goal).isSome = true
  by_cases hgo : (most.map (· - 0) == some 0 || none == some s.offset) = true
  · rw [upToRounds, if_pos hgo]
    exact h
  · rw [isSome_upToRounds p.run true ' ' s.after goal (Bool.eq_false_iff.mpr hgo), h, Bool.or_true]

/-- Where all of the others are refused, they read nothing. -/
theorem run_fronted_of_refuses {fronts : List (Option Nat × Pattern)}
    (h : ∀ front ∈ fronts, front.2.Refuses s.after) (goal : Goal) :
    (fronted fronts tail).run s goal = tail.run s goal := by
  induction fronts with
  | nil => rfl
  | cons front fronts ih =>
    have hfirst := h front List.mem_cons_self
    show (rounds true 0 front.1 front.2).run s (fun t => (fronted fronts tail).run t goal) = _
    rw [hfirst.run_rounds]
    exact ih fun other hother => h other (List.mem_cons_of_mem front hother)

/-- Where the pattern itself leads on, it does so with the others in front of it. -/
theorem isSome_run_fronted (fronts : List (Option Nat × Pattern))
    (h : (tail.run s goal).isSome = true) : ((fronted fronts tail).run s goal).isSome = true := by
  induction fronts with
  | nil => exact h
  | cons front fronts ih => exact isSome_run_rounds front.2 front.1 ih

/-- A reading of the whole ends with a reading of the pattern itself. -/
theorem exists_reads_of_fronted {fronts : List (Option Nat × Pattern)} :
    ∀ {s : State}, (fronted fronts tail).Reads s t →
      ∃ front u, Passes s front u ∧ tail.Reads u t := by
  induction fronts with
  | nil => exact fun {s} h => ⟨[], s, Passes.refl s s.kept, h⟩
  | cons front fronts ih =>
    rintro s ⟨v, hfirst, hrest⟩
    obtain ⟨first, hpasses⟩ := hfirst.exists_passes
    obtain ⟨others, u, hpasses', htail⟩ := ih hrest
    exact ⟨first ++ others, u, hpasses.trans hpasses', htail⟩

/-- A search for the whole goes on with a reading of the pattern itself, and right away if the
others are refused. -/
theorem exists_reads_of_run_fronted {fronts : List (Option Nat × Pattern)}
    (h : (fronted fronts tail).run s goal = some final) :
    ∃ front u t, Passes s front u ∧ tail.Reads u t ∧ goal t = some final ∧
      ((∀ front ∈ fronts, front.2.Refuses s.after) → u = s) := by
  by_cases hrefuses : ∀ front ∈ fronts, front.2.Refuses s.after
  · rw [run_fronted_of_refuses hrefuses] at h
    obtain ⟨t, hreads, hgoal⟩ := exists_reads_of_run tail s goal final h
    exact ⟨[], s, t, Passes.refl s s.kept, hreads, hgoal, fun _ => rfl⟩
  · obtain ⟨t, hreads, hgoal⟩ := exists_reads_of_run _ s goal final h
    obtain ⟨front, u, hpasses, htail⟩ := exists_reads_of_fronted hreads
    exact ⟨front, u, t, hpasses, htail, hgoal, fun h => absurd h hrefuses⟩

end Pattern

namespace Extract

open Text Source Pattern

variable {limits : Limits} {content : List Char}

/-! ## Heads of methods -/

/-- What may stand in front of the name of a method: decorators, modifiers, and a star. -/
def methodFronts : List (Option Nat × Pattern) := [
  (none, lit "@" ++ many1 (one (.union .word (.ofString "$.")))
    ++ opt (lit "(" ++ many (noneOf ")\n") ++ lit ")") ++ spaces1),
  (some 1, words ["public", "private", "protected"] ++ spaces1), (some 1, lit "static" ++ spaces1),
  (none, words ["override", "abstract"] ++ spaces1),
  (some 1, capture "async" (lit "async" ++ spaces1)),
  (some 1, words ["get", "set"] ++ spaces1 ++ followedBy (.unions [.char '#', .word, .char '$'])),
  (some 1, lit "*")]

/-- The name of a method. -/
def methodName : Pattern :=
  opt (lit "#") ++ identifier

/-- The name of a method, up to the opening parenthesis. -/
def namedHead : Pattern :=
  capture "name" methodName ++ (spaces ++ (generics ++ (spaces ++ lit "(")))

/-- A method is sought behind an indentation, by its fronts, blanks, and its name. -/
theorem run_methodPattern (s : State) (goal : Goal) :
    methodPattern.run s goal = (lineStart ++ (many (oneOf " \t")
      ++ capture "head" (fronted methodFronts (spaces ++ namedHead)))).run s goal :=
  rfl

/-- No front begins with a blank. -/
theorem methodFronts_refuse {c : Char} (hc : isSpace c = true) (rest : List Char) :
    ∀ front ∈ methodFronts, front.2.Refuses (c :: rest) := by
  have hchecks : ∀ front ∈ methodFronts, (front.2.opens (·.within (.compl .space)) &&
      front.2.surely fun _ => true) = true := by
    decide +kernel
  intro front hfront
  have hcheck := hchecks front hfront
  rw [Bool.and_eq_true] at hcheck
  refine refuses_of_opens hcheck.1 hcheck.2 ?_
  show (!isSpace c) = false
  rw [hc, Bool.not_true]

/-- What can be read behind rounds of a set is read behind one round less, unless there is none. -/
theorem reads_behind_first {p : Pattern} {set : CharSet} {s t : State} {c : Char}
    {rest : List Char} (h : (many (one set) ++ p).Reads s t) (hafter : s.after = c :: rest)
    (hnone : ∀ t, ¬p.Reads s t) : (many (one set) ++ p).Reads (s.pass c rest) t := by
  obtain ⟨u, ⟨_, rfl, further, -, hrounds⟩, hreads⟩ := h
  cases further with
  | zero =>
    obtain rfl := hrounds
    exact absurd hreads (hnone t)
  | succ further =>
    obtain ⟨_, ⟨d, others, hafter', -, rfl⟩, hmore⟩ := hrounds
    obtain ⟨rfl, rfl⟩ := List.cons.inj (hafter.symm.trans hafter')
    exact ⟨u, ⟨_, rfl, further, by simp, hmore⟩, hreads⟩

theorem namedHead_plain : (spaces ++ namedHead).plain = true := by
  decide +kernel

/-- The name of a method does not begin with a blank. -/
theorem namedHead_inked {s : State} {c : Char} {rest : List Char} (hafter : s.after = c :: rest)
    (hc : isSpace c = true) (t : State) : ¬namedHead.Reads s t := by
  intro hreads
  obtain ⟨d, others, hpasses⟩ := exists_cons_of_reads (by decide +kernel) hreads
  obtain ⟨rfl, -⟩ := List.cons.inj (hafter.symm.trans hpasses.after)
  have hmem : (CharSet.compl .space).mem c = true :=
    mem_of_opens (by decide +kernel) hreads hpasses
  have hink : (!isSpace c) = true := hmem
  rw [hc] at hink
  contradiction

/-- The indentation of a method. -/
def indentation : CharSet :=
  .ofString " \t"

theorem mem_indentation {c : Char} : indentation.mem c = true ↔ c = ' ' ∨ c = '\t' := by
  show (' ' == c || '\t' == c) = true ↔ _
  rw [Bool.or_eq_true, beq_iff_eq, beq_iff_eq, eq_comm, @eq_comm _ '\t']

/-- **Heads.** A method matches at the start of a line, by an indentation and a head. If the head
begins with a blank, then nothing stands in front of the name but blanks, and the first of them does
not belong to an indentation. -/
theorem exists_reads_head {subject text : List Char} {m : Match}
    (h : methodPattern.Matches subject text m) :
    ∃ s indent u front v t, Within text s ∧ startsLine s.before = true ∧ Passes s indent u ∧
      (∀ c ∈ indent, indentation.mem c = true) ∧ Passes u front v ∧
      (spaces ++ namedHead).Reads v t ∧
      m = ⟨subject, s.offset, t.offset, ⟨"head", u.offset, t.offset⟩ :: t.kept⟩ ∧
      ∀ c rest, u.after = c :: rest → isSpace c = true → v = u ∧ indentation.mem c = false := by
  obtain ⟨s, nonempty, hwithin, -, hmatch⟩ := h
  rw [matchHere?] at hmatch
  obtain ⟨final, hrun, rfl⟩ := Option.map_eq_some_iff.mp hmatch
  rw [run_methodPattern] at hrun
  cases hline : startsLine s.before with
  | false =>
    rw [run_lineStart_away hline] at hrun
    contradiction
  | true =>
    rw [run_lineStart hline] at hrun
    obtain ⟨indent, u, hindent, hmem, -, hhead, hgreedy⟩ := run_many_greedy hrun
    obtain ⟨front, v, t, hfront, hreads, hgoal, hblank⟩ := exists_reads_of_run_fronted hhead
    -- What is asked for in the end depends on the place only.
    have hplace : (nonempty && t.offset == s.offset) = false := by
      by_contra hempty
      simp only [Bool.not_eq_false] at hempty
      simp only [hempty, if_true] at hgoal
      contradiction
    simp only [hplace, Bool.false_eq_true, if_false, Option.some.injEq] at hgoal
    refine ⟨s, indent, u, front, v, t, hwithin, hline, hindent, hmem, hfront, hreads, ?_, ?_⟩
    · rw [← hgoal]
    · intro c rest hafter hspace
      obtain rfl : u = v := (hblank (by rw [hafter]; exact methodFronts_refuse hspace rest)).symm
      refine ⟨rfl, Bool.eq_false_iff.mpr fun hindentation => ?_⟩
      -- Otherwise the head could be read from one character further on.
      have hmore := reads_behind_first hreads hafter (namedHead_inked hafter hspace)
      have hnone := hgreedy c rest hafter hindentation
      have hfound : ((capture "head" (fronted methodFronts (spaces ++ namedHead))).run
          (u.pass c rest) fun t =>
            if nonempty && t.offset == s.offset then none else some t).isSome = true := by
        apply isSome_run_fronted methodFronts
        apply finds_reads namedHead_plain _ _ t hmore
        simp only [hplace, Bool.false_eq_true, if_false, Option.isSome_some]
      rw [hnone] at hfound
      contradiction

/-! ## Heads as texts -/

/-- The head begins with the name: only blanks and type parameters stand between it and the
parenthesis. -/
def BareHead (name head : List Char) : Prop :=
  ∃ gap types gap' rest, head = name ++ (gap ++ (types ++ (gap' ++ '(' :: rest))) ∧
    isBlank gap = true ∧ generics.Fits types ∧ isBlank gap' = true

/-- What follows the parenthesis makes no difference. -/
theorem BareHead.append {name head : List Char} (h : BareHead name head) (more : List Char) :
    BareHead name (head ++ more) := by
  obtain ⟨gap, types, gap', rest, rfl, hgap, htypes, hgap'⟩ := h
  refine ⟨gap, types, gap', rest ++ more, ?_, hgap, htypes, hgap'⟩
  simp only [List.append_assoc, List.cons_append]

/-- What blanks read is blank. -/
theorem isBlank_of_reads_spaces {s t : State} {gap : List Char} (h : spaces.Reads s t)
    (hpasses : Passes s gap t) : isBlank gap = true := by
  apply List.all_eq_true.mpr
  intro c hc
  have hmem : CharSet.space.mem c = true := mem_of_throughout (by decide) h hpasses hc
  exact hmem

/-- **Names.** What is read from the name on is a bare head, and the name is kept. -/
theorem exists_bareHead_of_reads {w t : State} (h : namedHead.Reads w t) :
    ∃ name head, Passes w head t ∧ name <+: head ∧ BareHead name head ∧
      head.getLast? = some '(' ∧ methodName.Fits name ∧
      t.span? "name" = some ⟨"name", w.offset, w.offset + name.length⟩ := by
  obtain ⟨_, ⟨x, hname, rfl⟩, hbehind⟩ := h
  have hunnamed : "name" ∉ (spaces ++ (generics ++ (spaces ++ lit "("))).keys := by decide +kernel
  have hspan := span?_of_reads (by decide +kernel) hunnamed hbehind
  obtain ⟨y, hgap, z, htypes, w', hgap', hparen⟩ := hbehind
  obtain ⟨name, hpasses, hfits⟩ := hname.exists_fits (by decide +kernel)
  obtain ⟨gap, hpasses₁⟩ := hgap.exists_passes
  obtain ⟨types, hpasses₂, hfits₂⟩ := htypes.exists_fits (by decide +kernel)
  obtain ⟨gap', hpasses₃⟩ := hgap'.exists_passes
  have hpasses₄ : Passes w' ['('] t := passes_of_reads_lit hparen
  have hwhole :=
    (hpasses.keep _).trans (hpasses₁.trans (hpasses₂.trans (hpasses₃.trans hpasses₄)))
  refine ⟨name, _, hwhole, List.prefix_append _ _, ⟨gap, types, gap', [], rfl,
    isBlank_of_reads_spaces hgap hpasses₁, hfits₂, isBlank_of_reads_spaces hgap' hpasses₃⟩, ?_,
    hfits, ?_⟩
  · simp
  · rw [hspan, ← hpasses.offset]
    rfl

/-- In the first part of a text a state stands where it stands in the whole text. -/
theorem take_of_within {n : Nat} {s : State} (hwithin : Within (content.take n) s) :
    content.take s.offset = s.before.reverse := by
  have hle := hwithin.offset_le
  rw [List.length_take] at hle
  rw [← hwithin.take, List.take_take, Nat.min_eq_left (by omega)]

/-- What is passed in the first part of a text comes next in the whole text. -/
theorem isPrefix_drop_of_within {n : Nat} {s t : State} {read : List Char}
    (hwithin : Within (content.take n) s) (hpasses : Passes s read t) :
    read <+: content.drop s.offset := by
  have hread : read <+: (content.take n).drop s.offset := by
    rw [hwithin.drop, hpasses.after]
    exact List.prefix_append _ _
  rw [List.drop_take] at hread
  exact hread.trans (List.take_prefix _ _)

/-- How the head of a method stands in a text behind a gap of blanks. -/
structure HeadText (content : List Char) (m : Match) (gap head : List Char) : Prop where
  line : startsLine (content.take m.start).reverse = true
  stands : gap ++ head <+: content.drop (headStart m)
  stop : m.stop = headStart m + (gap ++ head).length
  blank : isBlank gap = true
  inked : head.head?.any (!isSpace ·) = true
  closed : head.getLast? = some '('
  name : methodName.Fits ((m.group? "name").getD [])
  bare : gap ≠ [] → BareHead ((m.group? "name").getD []) head
  unindented : gap.head?.any indentation.mem = false

/-- **Heads of methods.** What a method is found by is its head, perhaps with a gap in front of it.
A gap does not go on with the indentation, and the head behind a gap is bare. -/
theorem exists_headText {start stop : Nat} (hstart : start ≤ content.length) {m : Match}
    (h : m ∈ methodPattern.findAllIn content start stop) :
    ∃ gap head, HeadText content m gap head := by
  obtain ⟨hmatches, -⟩ := matches_of_mem_findAllIn hstart h
  obtain ⟨s, indent, u, front, v, t, hs, hline, hindent, -, hfront, hreads, rfl, hblank⟩ :=
    exists_reads_head hmatches
  obtain ⟨w, hspaces, hnamed⟩ := hreads
  obtain ⟨blanks, hblanks⟩ := hspaces.exists_passes
  obtain ⟨name, head, hhead, hprefix, hbare, hclosed, hfits, hspan⟩ :=
    exists_bareHead_of_reads hnamed
  have hu := hs.passes hindent
  have hw := (hu.passes hfront).passes hblanks
  have hline' : startsLine (content.take s.offset).reverse = true := by
    rw [take_of_within hs, List.reverse_reverse]
    exact hline
  have hgroup : (Match.mk content s.offset t.offset
      (⟨"head", u.offset, t.offset⟩ :: t.kept)).group? "name" = some name := by
    have hkept : (Match.mk content s.offset t.offset
        (⟨"head", u.offset, t.offset⟩ :: t.kept)).span? "name" = t.span? "name" := rfl
    have hname := hprefix.trans (isPrefix_drop_of_within hw hhead)
    rw [Match.group?, hkept, hspan, Option.map_some, between, Nat.add_sub_cancel_left,
      ← List.prefix_iff_eq_take.mp hname]
  obtain ⟨d, others, rfl⟩ : ∃ d others, head = d :: others := by
    apply List.exists_cons_of_ne_nil
    rintro rfl
    contradiction
  have hinked : isSpace d = false := by
    rw [← Bool.not_eq_true]
    intro hspace
    exact namedHead_inked hhead.after hspace t hnamed
  have hall := hfront.trans (hblanks.trans hhead)
  obtain ⟨c, rest, hfirst⟩ : ∃ c rest, front ++ (blanks ++ d :: others) = c :: rest := by
    apply List.exists_cons_of_ne_nil
    simp
  have hafter : u.after = c :: (rest ++ t.after) := by rw [hall.after, hfirst, List.cons_append]
  cases hspace : isSpace c with
  | true =>
    -- Nothing but blanks stands in front of the name, and they are the gap.
    obtain ⟨rfl, hunindented⟩ := hblank c _ hafter hspace
    have hgap := hblanks.trans hhead
    refine ⟨blanks, d :: others, hline', isPrefix_drop_of_within hu hgap, hgap.offset,
      isBlank_of_reads_spaces hspaces hblanks, by simp [hinked], hclosed, ?_, ?_, ?_⟩
    · rw [hgroup]
      exact hfits
    · intro _
      rw [hgroup]
      exact hbare
    · cases blanks with
      | nil => rfl
      | cons blank blanks =>
        obtain ⟨rfl, -⟩ := List.cons.inj (hafter.symm.trans hblanks.after)
        exact hunindented
  | false =>
    refine ⟨[], front ++ (blanks ++ d :: others), hline', isPrefix_drop_of_within hu hall,
      hall.offset, rfl, ?_, ?_, ?_, fun h => absurd rfl h, rfl⟩
    · simp [hfirst, hspace]
    · rw [List.getLast?_append, List.getLast?_append, hclosed]
      rfl
    · rw [hgroup]
      exact hfits

/-- The match of a head stops behind its parenthesis. -/
theorem HeadText.getElem?_stop {m : Match} {gap head : List Char}
    (h : HeadText content m gap head) :
    headStart m < m.stop ∧ content[m.stop - 1]? = some '(' := by
  obtain ⟨front, hfront⟩ := List.getLast?_eq_some_iff.mp h.closed
  obtain ⟨rest, hrest⟩ := h.stands
  have hlength : m.stop = headStart m + (gap ++ front).length + 1 := by
    rw [h.stop, hfront]
    simp only [List.length_append, List.length_singleton]
    omega
  refine ⟨by omega, ?_⟩
  rw [hlength, Nat.add_sub_cancel, ← List.getElem?_drop, ← hrest, hfront, ← List.append_assoc,
    List.append_assoc, List.getElem?_append_right (Nat.le_refl _), Nat.sub_self]
  rfl

/-! ## Bare heads behind blank lines -/

/-- Where blanks and a bare head come next at the start of a line, a method matches. -/
theorem isSome_matchHere?_method (subject : List Char) {s t : State}
    (hline : startsLine s.before = true) (h : (spaces ++ namedHead).Reads s t) :
    (methodPattern.matchHere? subject s false).isSome = true := by
  rw [matchHere?, Option.isSome_map, run_methodPattern, run_lineStart hline]
  -- The indentation and the fronts may be left out.
  apply isSome_run_rounds
  apply isSome_run_fronted methodFronts
  exact finds_reads namedHead_plain s _ t h rfl

/-- The parenthesis that ends a bare head is the first one in it. -/
theorem paren_notMem {name gap types gap' : List Char} (hname : methodName.Fits name)
    (hgap : isBlank gap = true) (htypes : generics.Fits types) (hgap' : isBlank gap' = true) :
    '(' ∉ name ++ (gap ++ (types ++ gap')) := by
  have hfits {p : Pattern} {text : List Char}
      (hp : p.throughout (·.within (.compl (.char '('))) = true) (h : p.Fits text) :
      '(' ∉ text := by
    intro hmem
    obtain ⟨t, hreads, hpasses⟩ := h ⟨[], text, 0, []⟩ [] (List.append_nil text).symm
    have hother : (CharSet.compl (.char '(')).mem '(' = true :=
      mem_of_throughout hp hreads hpasses hmem
    contradiction
  have hblank {text : List Char} (h : isBlank text = true) : '(' ∉ text := by
    intro hmem
    have hspace := List.all_eq_true.mp h '(' hmem
    contradiction
  simp only [List.mem_append, not_or]
  exact ⟨hfits (by decide +kernel) hname, hblank hgap, hfits (by decide +kernel) htypes,
    hblank hgap'⟩

/-- What ends with the first mark of a text is the start of everything that ends with one. -/
theorem isPrefix_of_first {mark : Char} {front head rest more : List Char} (hfirst : mark ∉ front)
    (hlast : head.getLast? = some mark) (h : head ++ more = front ++ mark :: rest) :
    front ++ [mark] <+: head := by
  obtain ⟨others, rfl⟩ := List.getLast?_eq_some_iff.mp hlast
  rw [List.append_assoc, List.append_eq_append_iff] at h
  rcases h with ⟨between, rfl, hrest⟩ | ⟨between, rfl, hrest⟩
  · cases between with
    | nil => exact (List.append_nil _).symm ▸ List.prefix_rfl
    | cons c between =>
      obtain ⟨rfl, -⟩ := List.cons.inj hrest
      exact absurd (List.mem_append_right _ List.mem_cons_self) hfirst
  · cases between with
    | nil => exact (List.append_nil _).symm ▸ List.prefix_rfl
    | cons c between =>
      obtain ⟨rfl, -⟩ := List.cons.inj hrest
      rw [List.append_assoc]
      exact ⟨between ++ [mark], by simp⟩

/-- A bare head is read from the name on, whatever parentheses follow. -/
theorem BareHead.exists_fits {name head more : List Char} (h : BareHead name (head ++ more))
    (hname : methodName.Fits name) (hclosed : head.getLast? = some '(') :
    ∃ text, text <+: head ∧ namedHead.Fits text := by
  obtain ⟨gap, types, gap', rest, hparts, hgap, htypes, hgap'⟩ := h
  have hparen : (lit "(").Fits ['('] := fits_lit "("
  have hkept : (capture "name" methodName).Fits name := hname.capture "name"
  have hblank {text : List Char} (h : isBlank text = true) : spaces.Fits text :=
    fits_many (List.all_eq_true.mp h)
  refine ⟨name ++ (gap ++ (types ++ (gap' ++ ['(']))), ?_, ?_⟩
  · have hfirst := paren_notMem hname hgap htypes hgap'
    rw [← List.append_assoc, ← List.append_assoc, ← List.append_assoc] at hparts ⊢
    rw [← List.append_assoc, ← List.append_assoc] at hfirst
    exact isPrefix_of_first hfirst hclosed hparts
  · exact hkept.trans ((hblank hgap).trans (htypes.trans ((hblank hgap').trans hparen)))

/-- Where a line starts with blanks and then a bare head, a method matches. -/
theorem exists_matchHere?_method {n : Nat} {early blanks text : List Char}
    (hline : startsLine early.reverse = true) (hblanks : ∀ c ∈ blanks, isSpace c = true)
    (hfits : namedHead.Fits text) (hstands : early ++ (blanks ++ text) <+: content.take n) :
    ∃ place m, Within (content.take n) place ∧ place.kept = [] ∧ place.offset = early.length ∧
      methodPattern.matchHere? content place false = some m ∧ m.start = early.length := by
  obtain ⟨rest, hrest⟩ := hstands
  have hspaces : spaces.Fits blanks := fits_many hblanks
  obtain ⟨t, hreads, -⟩ := hspaces.trans hfits
    ⟨early.reverse, blanks ++ text ++ rest, early.length, []⟩ rest rfl
  obtain ⟨m, hm⟩ := Option.isSome_iff_exists.mp (isSome_matchHere?_method content hline hreads)
  obtain ⟨_, -, hspan⟩ := exists_reads_of_matchHere? hm
  refine ⟨_, m, ⟨?_, List.length_reverse⟩, rfl, rfl, hm, by rw [hspan]⟩
  rw [List.reverse_reverse, ← hrest, List.append_assoc]

/-- **Blank lines.** A bare head is found from the earliest line on from which nothing but blanks
stands in front of it. -/
theorem eq_nil_of_bareHead {opening stop : Nat} (hbrace : content[opening]? = some '{') {m : Match}
    (hm : m ∈ methodPattern.findAllIn content (opening + 1) stop) {gap head more : List Char}
    (h : HeadText content m gap head) (hbare : BareHead ((m.group? "name").getD []) (head ++ more))
    {early late : List Char} (hparts : content.take m.start = early ++ late)
    (hline : startsLine early.reverse = true) (hlate : isBlank late = true) : late = [] := by
  by_contra hne
  have hstart : opening + 1 ≤ content.length := (List.getElem?_eq_some_iff.mp hbrace).1
  obtain ⟨hbehind, hindent, hhead, hbound, hindented⟩ := headStart_spec hstart hm
  have hpositive := List.length_pos_iff.mpr hne
  have hlength : early.length + late.length = m.start := by
    rw [← List.length_append, ← hparts, List.length_take]
    omega
  -- Neither the brace of the class nor the parenthesis of a method stands in the blank lines.
  have hblanks {i : Nat} {c : Char} (hlow : early.length ≤ i) (hhigh : i < m.start)
      (hc : content[i]? = some c) : isSpace c = true := by
    rw [← List.getElem?_take_of_lt hhigh, hparts, List.getElem?_append_right hlow] at hc
    exact List.all_eq_true.mp hlate c (List.mem_of_getElem? hc)
  have hopening : opening < early.length := by
    by_contra hinside
    have hspace := hblanks (by omega) (by omega) hbrace
    contradiction
  have hbefore {n : Match} (hn : n ∈ methodPattern.findAllIn content (opening + 1) stop)
      (hearlier : n.start < m.start) : n.stop ≤ early.length := by
    by_contra hover
    obtain ⟨_, _, htext⟩ := exists_headText hstart hn
    obtain ⟨-, hparen⟩ := htext.getElem?_stop
    have hstops := stop_le_of_start_lt (findAllIn_pairwise methodPattern stop hstart) hm hn
      (by omega) hearlier
    have hspace := hblanks (by omega) (by omega) hparen
    contradiction
  -- A match begins where the blank lines do; it would have to stop there as well.
  obtain ⟨text, hprefix, hfits⟩ := hbare.exists_fits h.name h.closed
  have hblank : ∀ c ∈ late ++ (between content m.start (headStart m) ++ gap), isSpace c = true := by
    intro c hc
    rcases List.mem_append.mp hc with hc | hc
    · exact List.all_eq_true.mp hlate c hc
    · rcases List.mem_append.mp hc with hc | hc
      · rcases hindented c hc with rfl | rfl <;> rfl
      · exact List.all_eq_true.mp h.blank c hc
  have hstands : early ++ (late ++ (between content m.start (headStart m) ++ gap) ++ text) <+:
      content.take (max (opening + 1) stop) := by
    have hsame : early ++ (late ++ (between content m.start (headStart m) ++ gap) ++ text) =
        content.take (headStart m) ++ (gap ++ text) := by
      rw [← take_append_between content hindent, hparts]
      simp only [List.append_assoc]
    have hshort : gap ++ text <+: gap ++ head := (List.prefix_append_right_inj gap).mpr hprefix
    have hstop := h.stop
    have hle := hshort.length_le
    rw [hsame, List.prefix_take_iff, List.length_append, List.length_take]
    refine ⟨?_, by omega⟩
    nth_rewrite 2 [← List.take_append_drop (headStart m) content]
    exact (List.prefix_append_right_inj _).mpr (hshort.trans h.stands)
  obtain ⟨place, n, hwithin, hkept, hoffset, hn, hat⟩ :=
    exists_matchHere?_method hline hblank hfits hstands
  have hfound : n ∈ methodPattern.findAllIn content (opening + 1) stop := by
    apply mem_findAllIn (by decide +kernel) hstart hwithin hkept hn (by omega)
    intro k hk hlt
    rw [hoffset] at hlt ⊢
    exact hbefore hk (by omega)
  have hstops := hbefore hfound (by omega)
  obtain ⟨-, hbegins, hends, -⟩ := headStart_spec hstart hfound
  omega

/-! ## Methods -/

/-- How a method stands in its file. At the start of a line there is an indentation, perhaps a gap
of other blanks, and then the code up to the end of the method. What is kept of it and its first
line are those of the gap. -/
structure MethodText (limits : Limits) (content : List Char) (f : Function)
    (before indent gap code : List Char) : Prop where
  stands : before ++ (indent ++ (gap ++ code)) <+: content
  line : startsLine before.reverse = true
  indented : ∀ c ∈ indent, c = ' ' ∨ c = '\t'
  blank : isBlank gap = true
  inked : code.head?.any (!isSpace ·) = true
  kept : f.code = String.ofList (limits.keep "function" (gap ++ code))
  first : f.lineStart = 1 + count '\n' before

/-- **Where methods start.** The code of a method starts with its head, in the line of the head,
unless blanks stand in front of a bare head that are no indentation of its line. Then it starts with
them, from the earliest line on from which nothing but blanks stands in front of the head. -/
theorem methods_start (limits : Limits) (info : FileInfo) (content : List Char) {c : Class}
    (hc : c ∈ classes limits (View.ofFile info content)) {f : Function} (hf : f ∈ c.methods) :
    ∃ before indent gap code, MethodText limits content f before indent gap code ∧
      (gap ≠ [] → BareHead f.name.toList code ∧ ∀ x, gap.head? = some x → x ≠ ' ' ∧ x ≠ '\t') ∧
      (BareHead f.name.toList code → ∀ early late, before = early ++ late →
        startsLine early.reverse = true → isBlank late = true → late = []) := by
  obtain ⟨s, hs, rfl⟩ := List.mem_map.mp hc
  obtain ⟨opening, hstop, -, hbrace, -⟩ := classHeader_spec hs
  obtain ⟨m, callable, hm, hread, rfl⟩ := exists_of_mem_methods hf
  obtain ⟨hparen, -, hbody⟩ := readCallable_forbidden hread
  have hbrace : content[opening]? = some '{' := hbrace
  have hstart : opening + 1 ≤ content.length := (List.getElem?_eq_some_iff.mp hbrace).1
  have hm := mem_of_mem_atDepthZero hm
  rw [hstop] at hm
  have hm : m ∈ methodPattern.findAllIn content (opening + 1) _ := hm
  obtain ⟨gap, head, h⟩ := exists_headText hstart hm
  obtain ⟨-, hindent, hhead, -, hindented⟩ := headStart_spec hstart hm
  have hend : m.stop ≤ callable.stop := by
    have hbehind : callable.bodyStart ≤ callable.stop := hbody ▸ Nat.le_add_right _ _
    omega
  have hwhole : between content (headStart m) m.stop = gap ++ head := by
    rw [between, h.stop, Nat.add_sub_cancel_left, ← List.prefix_iff_eq_take.mp h.stands]
  have hlast : (gap ++ head).getLast? = some '(' := by
    rw [List.getLast?_append, h.closed]
    rfl
  obtain ⟨more, hmore⟩ : ∃ more, more = trimEnd (between content m.stop callable.stop) := ⟨_, rfl⟩
  have hcode : trimEnd (between content (headStart m) callable.stop) = gap ++ (head ++ more) := by
    rw [between_split content (Nat.le_of_lt hhead) hend, hwhole,
      trimEnd_append_inked hlast (by decide), ← hmore, List.append_assoc]
  have hname : (String.ofList ((m.group? "name").getD [])).toList = (m.group? "name").getD [] :=
    String.toList_ofList
  refine ⟨content.take m.start, between content m.start (headStart m), gap, head ++ more,
    ⟨?stands, h.line, hindented, h.blank, ?inked, ?kept, ?first⟩, ?gap, ?earliest⟩
  case stands =>
    rw [← List.append_assoc, take_append_between content hindent, ← hcode]
    nth_rewrite 3 [← List.take_append_drop (headStart m) content]
    apply (List.prefix_append_right_inj _).mpr
    exact (List.rdropWhile_prefix isSpace _).trans (List.take_prefix _ _)
  case inked =>
    have hinked := h.inked
    cases head with
    | nil => contradiction
    | cons d others => exact hinked
  case kept =>
    show String.ofList (limits.keep "function" (trimEnd _)) = _
    rw [← hcode]
    rfl
  case first =>
    show (View.ofFile info content).lineAt (headStart m) = _
    have hline : count '\n' (between content m.start (headStart m)) = 0 := by
      apply List.count_eq_zero.mpr
      intro hmem
      have htab := hindented '\n' hmem
      contradiction
    rw [lineAt_ofFile, ← take_append_between content hindent, count, List.count_append, ← count,
      ← count, hline, Nat.add_zero]
  case gap =>
    intro hne
    rw [buildFunction, hname]
    refine ⟨(h.bare hne).append more, fun c hc => ?_⟩
    have hunindented := h.unindented
    rw [hc, Option.any_some, ← Bool.not_eq_true, mem_indentation, not_or] at hunindented
    exact hunindented
  case earliest =>
    intro hbare early late hparts hline hlate
    rw [buildFunction, hname] at hbare
    exact eq_nil_of_bareHead hbrace hm h hbare hparts hline hlate

/-- A method behind a blank line, and one with a modifier behind another. -/
theorem methods_start_blank :
    let limits : Limits := ⟨blockFallback, blockCeiling, signatureCeiling, definitionCeiling, 50,
      .ok []⟩
    let content :=
      "class A \x7b\n\n  foo() \x7b\n  \x7d\n\n  async bar() \x7b\n  \x7d\n\x7d\n".toList
    ∃ c ∈ classes limits (View.ofFile default content), ∃ f ∈ c.methods,
      (f.name, f.lineStart, f.code) = ("bar", 6, "async bar() \x7b\n  \x7d") ∧
      ∃ before indent gap code, MethodText limits content f before indent gap code ∧
        (gap ≠ [] → BareHead f.name.toList code ∧ ∀ x, gap.head? = some x → x ≠ ' ' ∧ x ≠ '\t') ∧
        (BareHead f.name.toList code → ∀ early late, before = early ++ late →
          startsLine early.reverse = true → isBlank late = true → late = []) := by
  intro limits content
  have hseen : (classes limits (View.ofFile default content)).map (fun c =>
      c.methods.map fun f => (f.name, f.lineStart, f.code)) =
      [[("foo", 2, "\n  foo() \x7b\n  \x7d"), ("bar", 6, "async bar() \x7b\n  \x7d")]] := by
    decide +kernel
  obtain ⟨c, hc, hmethods⟩ := List.mem_map.mp (hseen ▸ List.mem_cons_self)
  obtain ⟨f, hf, hmethod⟩ := List.mem_map.mp
    (hmethods ▸ List.mem_cons_of_mem _ List.mem_cons_self)
  exact ⟨c, hc, f, hf, hmethod, methods_start limits default content hc hf⟩

/-- **A method that starts in a blank line.** The head of this method stands in the third line, but
its code starts with the line feed in front of it. -/
theorem method_starts_in_blanks :
    let limits : Limits := ⟨blockFallback, blockCeiling, signatureCeiling, definitionCeiling, 50,
      .ok []⟩
    let content := "class A \x7b\n\n  foo() \x7b\n  \x7d\n\x7d\n".toList
    startsWith (content.drop 13) "foo()".toList = true ∧ (LineTable.ofText content).lineAt 13 = 3 ∧
    ∃ c ∈ classes limits (View.ofFile default content), ∃ f ∈ c.methods,
      f.name = "foo" ∧ f.lineStart = 2 ∧ f.code.toList.head? = some '\n' := by
  intro limits content
  have hseen : (classes limits (View.ofFile default content)).map (fun c =>
      c.methods.map fun f => (f.name, f.lineStart, f.code.toList.head?)) =
      [[("foo", 2, some '\n')]] := by
    decide +kernel
  obtain ⟨c, hc, hmethods⟩ := List.mem_map.mp (hseen ▸ List.mem_cons_self)
  obtain ⟨f, hf, hmethod⟩ := List.mem_map.mp (hmethods ▸ List.mem_cons_self)
  refine ⟨by decide +kernel, by decide +kernel, c, hc, f, hf, ?_⟩
  simpa using hmethod

end Extract

end CodeSurvey
