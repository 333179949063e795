import CodeSurvey.Pattern.Matching

/-!
# How patterns read known texts

A run of a pattern is a search with a continuation. For a text of a known shape the search can be
told in one of three ways, whatever is asked for afterwards.

- `Refuses`: the pattern matches nothing at the start of the text.
- `Takes`: it has one way to match, and so hands over to the continuation there.
- `Prefers`: it first tries one way to match, and ends there if the continuation accepts.
- `Anchored`, `Quiet`: a pattern that matches only at the start of a line, in front of a letter, and
  a text that holds no such place.
- `findAllFrom_of_searchFrom`, `searchFrom_of_header`: a match that is known is found.
-/

namespace CodeSurvey.Pattern

/-! ## Three kinds of runs -/

/-- The pattern does not match at the start of a text, wherever that stands. -/
def Refuses (p : Pattern) (text : List Char) : Prop :=
  ∀ before offset kept goal, p.run ⟨before, text, offset, kept⟩ goal = none

/-- In front of `rest` the pattern matches the text before it and nothing else, and keeps
`captures`. -/
def Takes (p : Pattern) (text rest : List Char) (offset : Nat) (captures : List Capture) : Prop :=
  ∀ before kept goal, p.run ⟨before, text ++ rest, offset, kept⟩ goal =
    goal ⟨text.reverse ++ before, rest, offset + text.length, captures ++ kept⟩

/-- In front of `rest` the pattern would rather match the text before it than anything else, and
keeps `captures`. -/
def Prefers (p : Pattern) (text rest : List Char) (offset : Nat) (captures : List Capture) : Prop :=
  ∀ before kept goal final,
    goal ⟨text.reverse ++ before, rest, offset + text.length, captures ++ kept⟩ = some final →
      p.run ⟨before, text ++ rest, offset, kept⟩ goal = some final

variable {p q : Pattern} {text rest : List Char} {offset : Nat} {captures : List Capture}

/-- One way to match is the preferred one. -/
theorem Takes.prefers (h : p.Takes text rest offset captures) :
    p.Prefers text rest offset captures := by
  intro before kept goal final hgoal
  rw [h]
  exact hgoal

/-! ## Sequences -/

theorem run_seq (p q : Pattern) (s : State) (goal : Goal) :
    (p ++ q).run s goal = p.run s fun t => q.run t goal :=
  rfl

theorem seqs_cons_cons (p q : Pattern) (ps : List Pattern) :
    seqs (p :: q :: ps) = p ++ seqs (q :: ps) :=
  rfl

theorem seqs_singleton (p : Pattern) : seqs [p] = p :=
  rfl

/-- What refuses at the front refuses altogether. -/
theorem Refuses.seq (h : p.Refuses text) (q : Pattern) : (p ++ q).Refuses text := by
  intro before offset kept goal
  rw [run_seq]
  exact h _ _ _ _

theorem Takes.seq {first second : List Char} {captures' : List Capture}
    (hp : p.Takes first (second ++ rest) offset captures)
    (hq : q.Takes second rest (offset + first.length) captures') :
    (p ++ q).Takes (first ++ second) rest offset (captures' ++ captures) := by
  intro before kept goal
  rw [run_seq, List.append_assoc, hp, hq, List.reverse_append, List.append_assoc,
    List.append_assoc, List.length_append, Nat.add_assoc]

theorem Prefers.seq {first second : List Char} {captures' : List Capture}
    (hp : p.Prefers first (second ++ rest) offset captures)
    (hq : q.Prefers second rest (offset + first.length) captures') :
    (p ++ q).Prefers (first ++ second) rest offset (captures' ++ captures) := by
  intro before kept goal final hgoal
  rw [run_seq, List.append_assoc]
  refine hp _ _ _ _ (hq _ _ _ _ ?_)
  rw [List.reverse_append, List.length_append, List.append_assoc, List.append_assoc,
    ← Nat.add_assoc] at hgoal
  exact hgoal

/-- A part at the end that reads nothing adds nothing. -/
theorem Takes.seq_nothing (hp : p.Takes text rest offset captures)
    (hq : q.Takes [] rest (offset + text.length) []) :
    (p ++ q).Takes text rest offset captures := by
  have h := Takes.seq hp hq
  rw [List.append_nil, List.nil_append] at h
  exact h

theorem Prefers.seq_nothing (hp : p.Prefers text rest offset captures)
    (hq : q.Takes [] rest (offset + text.length) []) :
    (p ++ q).Prefers text rest offset captures := by
  have h := Prefers.seq hp hq.prefers
  rw [List.append_nil, List.nil_append] at h
  exact h

/-- A part that keeps nothing adds to the text only. -/
theorem Prefers.pass {first second : List Char} (hp : p.Prefers first (second ++ rest) offset [])
    (hq : q.Prefers second rest (offset + first.length) captures) :
    (p ++ q).Prefers (first ++ second) rest offset captures := by
  have h := hp.seq hq
  rw [List.append_nil] at h
  exact h

/-- A part that reads nothing adds nothing. -/
theorem Takes.skip (hp : p.Takes [] (text ++ rest) offset [])
    (hq : q.Prefers text rest offset captures) : (p ++ q).Prefers text rest offset captures :=
  hp.prefers.pass hq

/-- What comes behind the one way to match may refuse. -/
theorem Takes.seq_refuses
    (hp : ∀ offset, ∃ captures, p.Takes text rest offset captures) (hq : q.Refuses rest) :
    (p ++ q).Refuses (text ++ rest) := by
  intro before offset kept goal
  obtain ⟨captures, htakes⟩ := hp offset
  rw [run_seq, htakes]
  exact hq _ _ _ _

/-! ## Characters and words -/

/-- A character is refused where none of its set stands. -/
theorem refuses_one {set : CharSet} (h : text.head?.any set.mem = false) :
    (one set).Refuses text := by
  intro before offset kept goal
  cases text with
  | nil => rfl
  | cons c rest =>
    have hc : set.mem c = false := by simpa using h
    simp [run, hc]

/-- A character of its set is taken. -/
theorem takes_one {set : CharSet} {c : Char} (rest : List Char) (offset : Nat)
    (h : set.mem c = true) : (one set).Takes [c] rest offset [] := by
  intro before kept goal
  simp [run, h]

/-- The letters of a word are read one after another. -/
theorem takes_letters (letters rest : List Char) :
    ∀ offset, (seqs (letters.map fun c => one (.char c))).Takes letters rest offset [] := by
  induction letters with
  | nil =>
    intro offset before kept goal
    rfl
  | cons c letters ih =>
    intro offset
    have hc : (CharSet.char c).mem c = true := by simp [CharSet.mem]
    -- The last letter has no pattern behind it.
    cases letters with
    | nil => exact takes_one rest offset hc
    | cons d letters => exact (takes_one _ offset hc).seq (ih (offset + 1))

/-- A word is read where it stands. -/
theorem takes_lit (word : String) (rest : List Char) (offset : Nat) :
    (lit word).Takes word.toList rest offset [] :=
  takes_letters word.toList rest offset

/-- Letters that the text does not start with are refused. -/
theorem refuses_letters (letters : List Char) :
    ∀ text : List Char, ¬ letters <+: text →
      (seqs (letters.map fun c => one (.char c))).Refuses text := by
  induction letters with
  | nil =>
    intro text h
    exact absurd List.nil_prefix h
  | cons c letters ih =>
    intro text h
    by_cases hhead : text.head? = some c
    · obtain ⟨rest, rfl⟩ := List.head?_eq_some_iff.mp hhead
      have hc : (CharSet.char c).mem c = true := by simp [CharSet.mem]
      have hrest : ¬ letters <+: rest := fun hprefix => h ((List.prefix_cons_inj c).mpr hprefix)
      -- The first letter is there, so one of the others is missing.
      cases letters with
      | nil => exact absurd List.nil_prefix hrest
      | cons d letters => exact Takes.seq_refuses (fun _ => ⟨[], takes_one rest _ hc⟩) (ih rest hrest)
    · have hone : (one (.char c)).Refuses text := by
        apply refuses_one
        cases text with
        | nil => rfl
        | cons d rest =>
          have hd : d ≠ c := by simpa using hhead
          simpa [CharSet.mem] using hd.symm
      cases letters with
      | nil => exact hone
      | cons d letters => exact hone.seq _

/-- A word is refused where the text does not start with it. -/
theorem refuses_lit_of_not_start {word : String} (h : ¬ word.toList <+: text) :
    (lit word).Refuses text :=
  refuses_letters word.toList text h

/-- A word is refused where the text does not start with its first letter. -/
theorem refuses_lit {word : String} (first : Char) {others : List Char}
    (hword : word.toList = first :: others) (htext : text.head? ≠ some first) :
    (lit word).Refuses text := by
  apply refuses_lit_of_not_start
  rintro ⟨rest, rfl⟩
  rw [hword] at htext
  exact htext rfl

/-- A word of Latin letters is refused in front of anything else. -/
theorem refuses_lit_of_noLetter (word : String) (first : Char) {others : List Char}
    (hword : word.toList = first :: others) (hfirst : CharSet.letters.mem first = true)
    (htext : text.head?.any CharSet.letters.mem = false) : (lit word).Refuses text := by
  apply refuses_lit first hword
  intro hhead
  rw [hhead, Option.any_some, hfirst] at htext
  contradiction

/-! ## Alternatives and options -/

/-- Alternatives are refused where each of them is. -/
theorem refuses_alts {ps : List Pattern}
    (h : ∀ q ∈ p :: ps, q.Refuses text) : (alts (p :: ps)).Refuses text := by
  induction ps generalizing p with
  | nil => exact h p List.mem_cons_self
  | cons q ps ih =>
    intro before offset kept goal
    have hp := h p List.mem_cons_self before offset kept goal
    have hps := ih (fun r hr => h r (List.mem_cons_of_mem _ hr)) before offset kept goal
    simp only [alts, run, hp]
    exact hps

/-- The first alternative is read where it can be. -/
theorem Prefers.alts (h : p.Prefers text rest offset captures) (ps : List Pattern) :
    (Pattern.alts (p :: ps)).Prefers text rest offset captures := by
  intro before kept goal final hgoal
  cases ps with
  | nil => exact h _ _ _ _ hgoal
  | cons q ps =>
    show (alt p (Pattern.alts (q :: ps))).run _ goal = _
    rw [run, h _ _ _ _ hgoal]

/-- To keep what is matched makes no difference where nothing is. -/
theorem Refuses.capture (h : p.Refuses text) (key : String) :
    (capture key p).Refuses text := by
  intro before offset kept goal
  rw [run_capture]
  exact h _ _ _ _

/-- What is taken is kept. -/
theorem Takes.capture (h : p.Takes text rest offset captures) (key : String) :
    (Pattern.capture key p).Takes text rest offset
      (⟨key, offset, offset + text.length⟩ :: captures) := by
  intro before kept goal
  rw [run_capture, h]
  rfl

/-- What is preferred is kept. -/
theorem Prefers.capture (h : p.Prefers text rest offset captures) (key : String) :
    (Pattern.capture key p).Prefers text rest offset
      (⟨key, offset, offset + text.length⟩ :: captures) := by
  intro before kept goal final hgoal
  rw [run_capture]
  exact h _ _ _ _ hgoal

/-- An option first tries its pattern and then nothing. -/
theorem run_opt (p : Pattern) (s : State) (goal : Goal) :
    (opt p).run s goal = (p.run s goal).or (goal s) := by
  -- After one round no more are left, whatever the fuel.
  have hlast (t : State) (last : Option Nat) :
      upToRounds p.run true s.after (some 0) last t goal = goal t := by
    cases s.after <;> simp [upToRounds]
  have honce : (fun t => upToRounds p.run true s.after (some 0) (some s.offset) t goal) = goal := by
    funext t
    exact hlast t _
  show upToRounds p.run true (' ' :: s.after) (some 1) none s goal = _
  simp only [upToRounds, Option.map_some, honce]
  cases p.run s goal <;> rfl

/-- An option whose pattern is refused reads nothing. -/
theorem Refuses.opt (h : p.Refuses text) (offset : Nat) :
    (Pattern.opt p).Takes [] text offset [] := by
  intro before kept goal
  rw [run_opt, List.nil_append, h, Option.none_or]
  rfl

/-- An option prefers what its pattern does. -/
theorem Prefers.opt (h : p.Prefers text rest offset captures) :
    (Pattern.opt p).Prefers text rest offset captures := by
  intro before kept goal final hgoal
  rw [run_opt, h _ _ _ _ hgoal, Option.some_or]

/-- An option that cannot match leaves the text to what follows. -/
theorem Refuses.opt_seq (hp : p.Refuses text) (hq : q.Refuses text) :
    (Pattern.opt p ++ q).Refuses text :=
  Takes.seq_refuses (fun offset => ⟨[], hp.opt offset⟩) hq

/-- An option that can match in one way helps nothing where the pattern behind it refuses both with
and without it. -/
theorem Takes.opt_seq_refuses
    (hp : ∀ offset, ∃ captures, p.Takes text rest offset captures) (hrest : q.Refuses rest)
    (hboth : q.Refuses (text ++ rest)) : (Pattern.opt p ++ q).Refuses (text ++ rest) := by
  intro before offset kept goal
  obtain ⟨captures, htakes⟩ := hp offset
  rw [run_seq, run_opt, htakes, hrest]
  exact hboth _ _ _ _

/-! ## Repetitions -/

/-- A further round that starts behind the last one is tried before the goal. -/
theorem upToRounds_cons (body : Search) (x : Char) (fuel : List Char) {last : Option Nat}
    {s : State} (hlast : ∀ place, last = some place → place < s.offset) (goal : Goal) :
    upToRounds body true (x :: fuel) none last s goal =
      (body s fun t => upToRounds body true fuel none (some s.offset) t goal).or (goal s) := by
  have hmoved : ((none : Option Nat) == some 0 || last == some s.offset) = false := by
    cases last with
    | none => rfl
    | some place =>
      have hplace := hlast place rfl
      have hne : place ≠ s.offset := by omega
      simpa using hne
  rw [upToRounds, if_neg (by rw [hmoved]; decide), if_pos rfl]
  simp only [Option.map_none]
  cases body s fun t => upToRounds body true fuel none (some s.offset) t goal <;> rfl

/-- Characters of a set are read as long as there are any. The induction is on the characters: each
takes one round, and each round starts behind the one before. -/
theorem upToRounds_one {set : CharSet}
    (hrest : rest.head?.any set.mem = false) :
    ∀ (fuel : List Char) (last : Option Nat) (before : List Char) (offset : Nat)
      (kept : List Capture) (goal : Goal) (final : State),
      text.length < fuel.length → (∀ place, last = some place → place < offset) →
      (∀ c ∈ text, set.mem c = true) →
      goal ⟨text.reverse ++ before, rest, offset + text.length, kept⟩ = some final →
      upToRounds (one set).run true fuel none last ⟨before, text ++ rest, offset, kept⟩ goal =
        some final := by
  induction text with
  | nil =>
    intro fuel last before offset kept goal final hfuel hlast _ hgoal
    obtain ⟨x, fuel, rfl⟩ := List.exists_cons_of_length_pos (Nat.zero_lt_of_lt hfuel)
    -- One more round is tried, and its failure leaves the last word to the goal.
    rw [upToRounds_cons _ x fuel hlast, List.nil_append, refuses_one hrest, Option.none_or]
    exact hgoal
  | cons c text ih =>
    intro fuel last before offset kept goal final hfuel hlast hset hgoal
    obtain ⟨x, fuel, rfl⟩ := List.exists_cons_of_length_pos (Nat.zero_lt_of_lt hfuel)
    have htakes := takes_one (text ++ rest) offset (hset c List.mem_cons_self) before kept
    have hmore := ih fuel (some offset) (c :: before) (offset + 1) kept goal final
      (by simpa using hfuel) (by rintro place ⟨⟩; omega)
      (fun d hd => hset d (List.mem_cons_of_mem _ hd))
      (by simpa [Nat.add_assoc, Nat.add_comm 1] using hgoal)
    -- The rounds behind this one succeed, so the goal is not asked here.
    rw [upToRounds_cons _ x fuel hlast]
    have hround := htakes fun t => upToRounds (one set).run true fuel none (some offset) t goal
    simp only [List.cons_append, List.nil_append, List.reverse_singleton, List.length_singleton]
      at hround
    rw [List.cons_append, hround, hmore, Option.some_or]

/-- Blanks, or other characters of a set, are read as long as there are any. -/
theorem prefers_many {set : CharSet} (offset : Nat)
    (hrest : rest.head?.any set.mem = false) (htext : ∀ c ∈ text, set.mem c = true) :
    (many (one set)).Prefers text rest offset [] := by
  intro before kept goal final hgoal
  have hfuel : text.length < (' ' :: (text ++ rest)).length := by
    simp only [List.length_cons, List.length_append]
    omega
  exact upToRounds_one hrest _ none before offset kept goal final hfuel (by simp) htext hgoal

/-- One blank, and no more, is read in one way only. -/
theorem takes_spaces1 (offset : Nat) (hrest : rest.head?.any Text.isSpace = false) :
    spaces1.Takes [' '] rest offset [] := by
  have hnone : (one .space).Refuses rest := refuses_one hrest
  have hblank : (one .space).Takes [' '] rest offset [] := takes_one rest offset (by decide)
  intro before kept goal
  show space.run ⟨before, [' '] ++ rest, offset, kept⟩
    (fun t => upToRounds space.run true (' ' :: t.after) none none t goal) = _
  rw [space, hblank, upToRounds_cons _ _ _ (by simp), hnone, Option.none_or]

/-- A word with one blank behind it is read in one way only. -/
theorem takes_word (word : String) (offset : Nat)
    (hrest : rest.head?.any Text.isSpace = false) :
    (lit word ++ spaces1).Takes (word.toList ++ [' ']) rest offset [] :=
  (takes_lit word _ offset).seq (takes_spaces1 _ hrest)

/-- A word with one blank behind it is read in front of what is no blank. -/
theorem Prefers.seq_word {front : List Char} (word : String)
    (hp : p.Prefers front (word.toList ++ ([' '] ++ rest)) offset captures)
    (hrest : rest.head?.any Text.isSpace = false) :
    (p ++ lit word ++ spaces1).Prefers (front ++ word.toList ++ [' ']) rest offset captures := by
  have hword := hp.seq (takes_lit word ([' '] ++ rest) _).prefers
  exact hword.seq (takes_spaces1 _ hrest).prefers

/-- A header ends with a blank and an opening brace. -/
theorem Prefers.seq_brace {front : List Char}
    (hp : p.Prefers front ([' '] ++ ("\x7b".toList ++ rest)) offset captures) :
    (p ++ spaces ++ lit "\x7b").Prefers (front ++ [' '] ++ "\x7b".toList) rest offset
      captures := by
  have hblank : spaces.Prefers [' '] ("\x7b".toList ++ rest) (offset + front.length) [] :=
    prefers_many _ rfl (List.forall_mem_singleton.mpr rfl)
  exact (hp.seq hblank).seq (takes_lit "\x7b" rest _).prefers

/-- Rounds of what is refused read nothing. -/
theorem Refuses.many (h : p.Refuses rest) (offset : Nat) :
    (Pattern.many p).Takes [] rest offset [] := by
  intro before kept goal
  show upToRounds p.run true (' ' :: rest) none none ⟨before, rest, offset, kept⟩ goal = _
  rw [upToRounds_cons _ _ _ (by simp), h, Option.none_or]
  rfl

/-- Where one round has to be read, what is refused is refused. -/
theorem Refuses.many1 (h : p.Refuses text) : (Pattern.many1 p).Refuses text := by
  intro before offset kept goal
  exact h _ _ _ _

/-- Where no character of a set stands, none is read. -/
theorem takes_many_nil {set : CharSet} (offset : Nat)
    (hrest : rest.head?.any set.mem = false) : (many (one set)).Takes [] rest offset [] :=
  (refuses_one hrest).many offset

/-- One round is read if no other can follow. -/
theorem Prefers.many_once (h : p.Prefers text rest offset []) (hrest : p.Refuses rest)
    (htext : text ≠ []) : (Pattern.many p).Prefers text rest offset [] := by
  intro before kept goal final hgoal
  obtain ⟨c, others, rfl⟩ := List.exists_cons_of_ne_nil htext
  show upToRounds p.run true (' ' :: (c :: others ++ rest)) none none
    ⟨before, c :: others ++ rest, offset, kept⟩ goal = some final
  have hmoved (place : Nat) (hplace : some offset = some place) :
      place < offset + (c :: others).length := by
    obtain rfl := Option.some.inj hplace
    rw [List.length_cons]
    omega
  have hround := h before kept
    (fun t => upToRounds p.run true (c :: others ++ rest) none (some offset) t goal) final (by
      rw [List.cons_append, upToRounds_cons _ _ _ hmoved, hrest, Option.none_or]
      exact hgoal)
  rw [upToRounds_cons _ _ _ (by simp), hround, Option.some_or]

/-- Characters of a set, at least one, are read as long as there are any. -/
theorem prefers_many1 {set : CharSet} (offset : Nat) (hrest : rest.head?.any set.mem = false)
    (htext : ∀ c ∈ text, set.mem c = true) (hne : text ≠ []) :
    (many1 (one set)).Prefers text rest offset [] := by
  obtain ⟨c, others, rfl⟩ := List.exists_cons_of_ne_nil hne
  obtain ⟨hc, hothers⟩ := List.forall_mem_cons.mp htext
  exact (takes_one _ offset hc).prefers.pass (prefers_many _ hrest hothers)

/-! ## Matches at the start of lines -/

/-- Whether a line starts behind these characters, the last of which stands first. -/
def startsLine (before : List Char) : Bool :=
  before.isEmpty || before.head? == some '\n'

@[simp] theorem startsLine_cons (c : Char) (before : List Char) :
    startsLine (c :: before) = (c == '\n') := by
  simp [startsLine]

/-- A line starts behind a text that ends in a line feed. -/
theorem startsLine_of_getLast? (h : text.getLast? = some '\n') (before : List Char) :
    startsLine (text.reverse ++ before) = true := by
  obtain ⟨others, rfl⟩ := List.getLast?_eq_some_iff.mp h
  simp

/-- The pattern matches only at the start of a line, and in front of a Latin letter. -/
structure Anchored (p : Pattern) : Prop where
  away : ∀ before text offset kept goal, startsLine before = false →
    p.run ⟨before, text, offset, kept⟩ goal = none
  noLetter : ∀ text, text.head?.any CharSet.letters.mem = false → p.Refuses text

/-- At the start of a line the condition on it may be left out. -/
theorem run_lineStart {before : List Char} {kept : List Capture} {goal : Goal}
    (h : startsLine before = true) :
    (lineStart ++ p).run ⟨before, text, offset, kept⟩ goal =
      p.run ⟨before, text, offset, kept⟩ goal :=
  if_pos h

/-- Elsewhere the condition fails. -/
theorem run_lineStart_away {before : List Char} {kept : List Capture} {goal : Goal}
    (h : startsLine before = false) :
    (lineStart ++ p).run ⟨before, text, offset, kept⟩ goal = none :=
  if_neg (ne_true_of_eq_false h)

/-- A pattern behind the start of a line is anchored if it needs a letter. -/
theorem anchored_lineStart
    (h : ∀ text, text.head?.any CharSet.letters.mem = false → p.Refuses text) :
    (lineStart ++ p).Anchored where
  away _ _ _ _ _ haway := run_lineStart_away haway
  noLetter text htext before offset kept goal := by
    cases hline : startsLine before with
    | true => rw [run_lineStart hline, h text htext]
    | false => exact run_lineStart_away hline

/-- What follows an anchored pattern leaves it anchored. -/
theorem Anchored.seq (h : p.Anchored) (q : Pattern) : (p ++ q).Anchored where
  away before text offset kept goal haway := by
    rw [run_seq]
    exact h.away _ _ _ _ _ haway
  noLetter text htext := (h.noLetter text htext).seq q

/-- Where the start of a line makes no difference, a pattern behind it refuses with it. -/
theorem Refuses.lineStart (h : p.Refuses text) :
    (Pattern.lineStart ++ p).Refuses text := by
  intro before offset kept goal
  cases hline : startsLine before with
  | true => rw [run_lineStart hline, h]
  | false => exact run_lineStart_away hline

/-! ## Quiet texts -/

/-- No line that starts in the text starts with a Latin letter, where `fresh` tells whether one
starts with the text. -/
def Quiet : (fresh : Bool) → (text : List Char) → Prop
  | _, [] => True
  | fresh, c :: rest => (fresh = true → CharSet.letters.mem c = false) ∧ Quiet (c == '\n') rest

/-- In the middle of a line nothing is asked of the first character. -/
theorem Quiet.weaken (h : Quiet true text) (fresh : Bool) : Quiet fresh text := by
  cases text with
  | nil => exact trivial
  | cons c rest => exact ⟨fun _ => h.1 rfl, h.2⟩

/-- A text without line feeds is quiet behind its line's start, and so is what follows it. -/
theorem quiet_append (h : '\n' ∉ text) (hrest : Quiet false rest) :
    Quiet false (text ++ rest) := by
  induction text with
  | nil => exact hrest
  | cons c text ih =>
    have hc : (c == '\n') = false := by
      have hne : c ≠ '\n' := fun heq => h (by simp [heq])
      simpa using hne
    refine ⟨by simp, ?_⟩
    rw [hc]
    exact ih fun hmem => h (List.mem_cons_of_mem _ hmem)

/-- Nothing in a text without letters is asked for. -/
theorem quiet_of_noLetters (h : ∀ c ∈ text, CharSet.letters.mem c = false) :
    Quiet true text := by
  induction text with
  | nil => exact trivial
  | cons c text ih =>
    have hrest := ih fun d hd => h d (List.mem_cons_of_mem _ hd)
    exact ⟨fun _ => h c List.mem_cons_self, hrest.weaken _⟩

/-- A text that is quiet wherever it stands may follow any quiet text. -/
theorem Quiet.append (hrest : Quiet true rest) :
    ∀ {fresh : Bool}, Quiet fresh text → Quiet fresh (text ++ rest) := by
  induction text with
  | nil => exact fun _ => hrest.weaken _
  | cons c text ih => exact fun h => ⟨h.1, ih h.2⟩

/-- What is read leaves the rest quiet. -/
theorem Quiet.drop {taken left : List Char} :
    ∀ {before : List Char}, Quiet (startsLine before) (taken ++ left) →
      Quiet (startsLine (taken.reverse ++ before)) left := by
  induction taken with
  | nil => exact fun h => h
  | cons c taken ih =>
    intro before h
    have hrest := h.2
    rw [← startsLine_cons c before] at hrest
    rw [List.reverse_cons, List.append_assoc]
    exact ih hrest

/-! ## Searches -/

/-- A match at the start is what is found first. -/
theorem searchFrom_of_matchHere? {nonempty : Bool} {m : Match}
    (h : p.matchHere? text ⟨[], text, 0, []⟩ nonempty = some m) :
    p.searchFrom text text [] 0 nonempty = some m := by
  cases text with
  | nil => rw [searchFrom, h]
  | cons c text => rw [searchFrom, h]

/-- Where a pattern is refused, the one behind it is tried. -/
theorem Refuses.alt_matchHere? {s : State} (h : p.Refuses s.after) (q : Pattern)
    (subject : List Char) (nonempty : Bool) :
    (alt p q).matchHere? subject s nonempty = q.matchHere? subject s nonempty := by
  rw [matchHere?, matchHere?, run, h s.before s.offset s.kept]

/-- Where a pattern does not match, it is sought one character further on. -/
theorem searchFrom_of_refuses (subject before : List Char) {c : Char} (offset : Nat)
    (h : p.Refuses (c :: rest)) :
    p.searchFrom subject (c :: rest) before offset false =
      p.searchFrom subject rest (c :: before) (offset + 1) false := by
  rw [searchFrom, matchHere?, h]
  rfl

/-- The state behind a text that comes next. -/
theorem forward?_append (text rest : List Char) (kept : List Capture) :
    ∀ (before : List Char) (offset : Nat),
      State.forward? text.length ⟨before, text ++ rest, offset, kept⟩ =
        some ⟨text.reverse ++ before, rest, offset + text.length, kept⟩ := by
  induction text with
  | nil => intro before offset; rfl
  | cons c text ih =>
    intro before offset
    have hrest := ih (c :: before) (offset + 1)
    rw [List.length_cons, List.cons_append, State.forward?]
    simp only [hrest, List.reverse_cons, List.append_assoc, List.cons_append, List.nil_append]
    congr 2
    omega

/-- The match is the one that is preferred. -/
theorem Prefers.matchHere? (h : p.Prefers text rest offset captures) (subject before : List Char) :
    p.matchHere? subject ⟨before, text ++ rest, offset, []⟩ false =
      some ⟨subject, offset, offset + text.length, captures⟩ := by
  have hrun := h before [] some _ rfl
  rw [List.append_nil] at hrun
  rw [Pattern.matchHere?]
  -- Empty matches are not refused here, so the goal accepts every state.
  show Option.map _ (p.run _ some) = _
  rw [hrun]
  rfl

/-- So it is at the start of a line. -/
theorem matchHere?_prefers (subject : List Char) {before header : List Char}
    (hline : startsLine before = true)
    (hprefers : p.Prefers header rest offset captures) :
    (lineStart ++ p).matchHere? subject ⟨before, header ++ rest, offset, []⟩ false =
      some ⟨subject, offset, offset + header.length, captures⟩ := by
  rw [matchHere?, run_lineStart hline]
  exact hprefers.matchHere? subject before

/-- At the start of a text what is preferred is matched. -/
theorem matchStart?_prefers (h : p.Prefers text rest 0 captures) :
    p.matchStart? (text ++ rest) = some ⟨text ++ rest, 0, text.length, captures⟩ := by
  rw [matchStart?, h.matchHere?, Nat.zero_add]

/-- A text that is preferred to its end is matched as a whole. -/
theorem matchAll?_prefers (h : p.Prefers text [] 0 captures) :
    p.matchAll? text = some ⟨text, 0, text.length, captures⟩ := by
  have hread := h [] [] (fun t => if t.after.isEmpty then some t else none) _ rfl
  rw [List.append_nil, List.append_nil, Nat.zero_add, List.append_nil] at hread
  rw [matchAll?, hread]
  rfl

/-- What is found first is listed first, and the pattern is sought again behind it. -/
theorem findAllFrom_of_searchFrom {subject before header : List Char} {fuel : Nat}
    (hheader : header ≠ [])
    (hsearch : p.searchFrom subject (text ++ (header ++ rest)) before offset false =
      some ⟨subject, offset + text.length, offset + text.length + header.length, captures⟩) :
    p.findAllFrom subject (fuel + 1) ⟨before, text ++ (header ++ rest), offset, []⟩ false =
      ⟨subject, offset + text.length, offset + text.length + header.length, captures⟩ ::
        p.findAllFrom subject fuel
          ⟨header.reverse ++ (text.reverse ++ before), rest,
            offset + text.length + header.length, []⟩ false := by
  -- The next search starts where the match has stopped.
  have hforward := forward?_append (text ++ header) rest [] before offset
  rw [List.append_assoc, List.reverse_append, List.append_assoc, List.length_append,
    ← Nat.add_assoc] at hforward
  have hread : offset + text.length + header.length - offset = text.length + header.length := by
    omega
  have hnonempty : (offset + text.length == offset + text.length + header.length) = false := by
    have hpositive := List.length_pos_iff.mpr hheader
    rw [beq_eq_false_iff_ne]
    omega
  rw [findAllFrom, hsearch]
  simp only [hread, hforward, hnonempty]

/-- A match that is not empty is what a search finds where it begins. -/
theorem searchFrom_of_header {subject before header : List Char} {nonempty : Bool} {m : Match}
    (hheader : header ≠ [])
    (hmatch : p.matchHere? subject ⟨before, header ++ rest, offset, []⟩ nonempty = some m) :
    p.searchFrom subject (header ++ rest) before offset nonempty = some m := by
  obtain ⟨c, others, rfl⟩ := List.exists_cons_of_ne_nil hheader
  rw [List.cons_append] at hmatch ⊢
  rw [searchFrom, hmatch]

end CodeSurvey.Pattern
