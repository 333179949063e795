import CodeSurvey.Proofs.Matching
import CodeSurvey.Source.Signature

/-!
# Modifiers of parameters

Before the name of a parameter is looked for, the modifiers in front of it are taken away: a word of
the list with a blank behind it is one, whatever follows.

- `replaceAll_nothing`, `replaceAll_front`: what is left where a pattern matches only at the start of
  a text.
- `refuses_word_in`: a word is not read where it is only a part of a name.
- `modifiers_kept`: a name that is no modifier is left as it is.
- `modifiers_stripped`: a name that is one is taken away.
-/

namespace CodeSurvey.Pattern

variable {p q : Pattern} {text rest front : List Char}

/-! ## Words of a list -/

/-- The first word of a list is tried before the others. -/
theorem run_words_cons (first second : String) (others : List String) (q : Pattern) (s : State)
    (goal : Goal) :
    (words (first :: second :: others) ++ q).run s goal =
      ((lit first ++ q).run s goal).or ((words (second :: others) ++ q).run s goal) := by
  show (alt (lit first) (words (second :: others))).run s (fun t => q.run t goal) = _
  rw [run, run_seq, run_seq]
  cases (lit first).run s fun t => q.run t goal <;> rfl

/-- Words are refused where each of them is. -/
theorem refuses_words_seq {texts : List String} (hne : texts ≠ [])
    (h : ∀ word ∈ texts, (lit word ++ q).Refuses text) : (words texts ++ q).Refuses text := by
  induction texts with
  | nil => contradiction
  | cons first others ih =>
    obtain ⟨hfirst, hothers⟩ := List.forall_mem_cons.mp h
    cases others with
    | nil => exact hfirst
    | cons second others =>
      intro before offset kept goal
      rw [run_words_cons, hfirst, Option.none_or]
      exact ih (by simp) hothers before offset kept goal

/-- One of the words is read where the others are refused. -/
theorem prefers_words_seq {texts : List String} {word : String} {offset : Nat}
    (hword : word ∈ texts) (hprefers : (lit word ++ q).Prefers text rest offset [])
    (hothers : ∀ other ∈ texts, other ≠ word → (lit other ++ q).Refuses (text ++ rest)) :
    (words texts ++ q).Prefers text rest offset [] := by
  induction texts with
  | nil => contradiction
  | cons first others ih =>
    obtain ⟨hfirst, hothers⟩ := List.forall_mem_cons.mp hothers
    cases others with
    | nil =>
      obtain rfl := List.mem_singleton.mp hword
      exact hprefers
    | cons second others =>
      intro before kept goal final hgoal
      rw [run_words_cons]
      by_cases hsame : first = word
      · rw [hsame, hprefers before kept goal final hgoal, Option.some_or]
      · have hword : word ∈ second :: others :=
          (List.mem_cons.mp hword).resolve_left fun heq => hsame heq.symm
        rw [hfirst hsame, Option.none_or]
        exact ih hword hothers before kept goal final hgoal

/-- A text of which a word holds no first character makes no difference to whether the word stands
at the start of what is in front of it. -/
theorem isPrefix_append_iff {word name : List Char} (h : ∀ c, rest.head? = some c → c ∉ word) :
    word <+: name ++ rest ↔ word <+: name := by
  constructor
  · rintro ⟨more, hmore⟩
    rcases List.append_eq_append_iff.mp hmore with ⟨others, rfl, -⟩ | ⟨others, hword, rfl⟩
    · exact List.prefix_append word others
    · cases others with
      | nil => exact ⟨[], by rw [hword, List.append_nil, List.append_nil]⟩
      | cons c others => exact absurd (by simp [hword]) (h c rfl)
  · rintro ⟨more, rfl⟩
    rw [List.append_assoc]
    exact List.prefix_append word _

/-- One of the words is read if the others do not start the text. -/
theorem prefers_words {texts : List String} {word : String} (hword : word ∈ texts)
    (hothers : ∀ other ∈ texts, other ≠ word → ¬ other.toList <+: word.toList ++ rest)
    (offset : Nat) : (words texts).Prefers word.toList rest offset [] := by
  have hread : (lit word ++ empty).Prefers word.toList rest offset [] :=
    (takes_lit word rest offset).prefers
  exact prefers_words_seq hword hread fun other hother hne =>
    (refuses_lit_of_not_start (hothers other hother hne)).seq _

/-- A word with a blank behind it is not read in front of a text that starts with a name, if the
name is another word or no blank stands behind it. -/
theorem refuses_word_in {word : String} {name : List Char}
    (hname : ∀ c ∈ name, Text.isSpace c = false)
    (hrest : ∀ c, rest.head? = some c → c ∉ word.toList)
    (hends : name = word.toList → rest.head?.any Text.isSpace = false) :
    (lit word ++ spaces1).Refuses (name ++ rest) := by
  by_cases hstarts : word.toList <+: name ++ rest
  · obtain ⟨others, rfl⟩ := (isPrefix_append_iff hrest).mp hstarts
    have hinked : (others ++ rest).head?.any Text.isSpace = false := by
      cases others with
      | nil => exact hends (List.append_nil _)
      | cons c others => exact hname c (by simp)
    rw [List.append_assoc]
    have hone : space.Refuses (others ++ rest) := refuses_one hinked
    have hblank : spaces1.Refuses (others ++ rest) := hone.many1
    exact Takes.seq_refuses (fun offset => ⟨[], takes_lit word (others ++ rest) offset⟩) hblank
  · exact (refuses_lit_of_not_start hstarts).seq _

/-! ## Replacing at the start -/

/-- The pattern matches nowhere but at the start of a text. -/
def OnlyAtStart (p : Pattern) : Prop :=
  ∀ before text offset kept goal, before ≠ [] → p.run ⟨before, text, offset, kept⟩ goal = none

theorem onlyAtStart_textStart : OnlyAtStart textStart := by
  intro before text offset kept goal hbefore
  exact if_neg (by simpa [State.holds] using hbefore)

theorem OnlyAtStart.seq (h : p.OnlyAtStart) (q : Pattern) : (p ++ q).OnlyAtStart := by
  intro before text offset kept goal hbefore
  rw [run_seq]
  exact h _ _ _ _ _ hbefore

/-- Behind the start it is not found. -/
theorem OnlyAtStart.searchFrom (h : p.OnlyAtStart) (subject text : List Char) :
    ∀ (before : List Char) (offset : Nat) (nonempty : Bool), before ≠ [] →
      p.searchFrom subject text before offset nonempty = none := by
  induction text with
  | nil =>
    intro before offset nonempty hbefore
    rw [Pattern.searchFrom, matchHere?, h _ _ _ _ _ hbefore, Option.map_none]
  | cons c text ih =>
    intro before offset nonempty hbefore
    rw [Pattern.searchFrom, matchHere?, h _ _ _ _ _ hbefore, Option.map_none]
    exact ih (c :: before) (offset + 1) false (by simp)

/-- Where the pattern reads nothing, nothing is taken away. -/
theorem replaceAll_nothing (hp : p.OnlyAtStart)
    (h : ∀ goal : Goal, p.run ⟨[], text, 0, []⟩ goal = goal ⟨[], text, 0, []⟩) :
    p.replaceAll (fun _ => []) text = text := by
  have hmatch : p.matchHere? text ⟨[], text, 0, []⟩ false = some ⟨text, 0, 0, []⟩ := by
    rw [matchHere?, h]
    rfl
  -- The same empty match is refused the second time, and there is none behind it.
  have hagain : p.matchHere? text ⟨[], text, 0, []⟩ true = none := by
    rw [matchHere?, h]
    rfl
  have hsecond : p.searchFrom text text [] 0 true = none := by
    cases text with
    | nil => rw [searchFrom, hagain]
    | cons c text =>
      rw [searchFrom, hagain]
      exact hp.searchFrom _ _ _ _ _ (by simp)
  have hall : p.findAll text = [⟨text, 0, 0, []⟩] := by
    rw [findAll, findAllFrom, searchFrom_of_matchHere? hmatch]
    show _ :: p.findAllFrom text (2 * text.length + 1) ⟨[], text, 0, []⟩ true = _
    rw [findAllFrom, hsecond]
  rw [replaceAll, hall, replaceFrom, replaceFrom, Text.between, Nat.sub_zero, List.take_zero]
  rfl

/-- What the pattern reads at the start is taken away. -/
theorem replaceAll_front (hp : p.OnlyAtStart) (hfront : front ≠ [])
    (h : p.run ⟨[], front ++ rest, 0, []⟩ some = some ⟨front.reverse, rest, front.length, []⟩) :
    p.replaceAll (fun _ => []) (front ++ rest) = rest := by
  have hmatch : p.matchHere? (front ++ rest) ⟨[], front ++ rest, 0, []⟩ false =
      some ⟨front ++ rest, 0, front.length, []⟩ := by
    rw [matchHere?]
    show Option.map _ (p.run _ some) = _
    rw [h]
    rfl
  have hforward := forward?_append front rest [] [] 0
  rw [List.append_nil, Nat.zero_add] at hforward
  have hall : p.findAll (front ++ rest) = [⟨front ++ rest, 0, front.length, []⟩] := by
    rw [findAll, findAllFrom, searchFrom_of_matchHere? hmatch]
    simp only [Nat.sub_zero, hforward]
    rw [findAllFrom, hp.searchFrom _ _ _ _ _ (by simpa using hfront)]
  rw [replaceAll, hall, replaceFrom, replaceFrom, Text.between, Nat.sub_zero, List.take_zero,
    List.drop_left]
  rfl

end CodeSurvey.Pattern

namespace CodeSurvey.Source

open Text Pattern

/-! ## Modifiers -/

/-- The words that are taken for modifiers of a parameter. -/
def modifiers : List String :=
  ["public", "private", "protected", "readonly", "override"]

/-- Modifiers are made up of Latin letters, none of which is blank. -/
theorem letters_of_mem_modifiers {word : String} (h : word ∈ modifiers) :
    ∀ c ∈ word.toList, CharSet.letters.mem c = true ∧ isSpace c = false := by
  have hall : (modifiers.all fun word => word.toList.all fun c =>
      CharSet.letters.mem c && !isSpace c) = true := by decide
  simp only [List.all_eq_true, Bool.and_eq_true, Bool.not_eq_true'] at hall
  exact hall word h

theorem parameterModifiers_onlyAtStart : parameterModifiers.OnlyAtStart :=
  (onlyAtStart_textStart.seq _).seq _

variable {name rest : List Char} {word : String}

/-- No decorator stands where there is no sign for one. -/
theorem decorators_takes_nothing (htext : rest.head? ≠ some '@') (offset : Nat) :
    (many (decorator ++ spaces)).Takes [] rest offset [] := by
  have hsign : (lit "@").Refuses rest := refuses_lit '@' rfl htext
  exact (((hsign.seq _).seq _).seq _).many offset

/-- A modifier is refused in front of a name that is another word or has no blank behind it. -/
theorem refuses_modifiers (hname : ∀ c ∈ name, isSpace c = false)
    (hrest : rest.head?.any CharSet.letters.mem = false)
    (hends : ∀ word ∈ modifiers, name = word.toList → rest.head?.any isSpace = false) :
    (words modifiers ++ spaces1).Refuses (name ++ rest) := by
  refine refuses_words_seq (by decide) fun word hword => ?_
  refine refuses_word_in hname (fun c hc hmem => ?_) (hends word hword)
  rw [hc, Option.any_some, (letters_of_mem_modifiers hword c hmem).1] at hrest
  contradiction

/-- **Names.** A parameter that starts with a name is left as it is, unless the name is a modifier
and a blank stands behind it. -/
theorem modifiers_kept (hname : ∀ c ∈ name, isSpace c = false)
    (hsign : (name ++ rest).head? ≠ some '@')
    (hrest : rest.head?.any CharSet.letters.mem = false)
    (hends : ∀ word ∈ modifiers, name = word.toList → rest.head?.any isSpace = false) :
    parameterModifiers.replaceAll (fun _ => []) (name ++ rest) = name ++ rest := by
  apply replaceAll_nothing parameterModifiers_onlyAtStart
  intro goal
  have hdecorators := decorators_takes_nothing hsign 0
  have hwords := (refuses_modifiers hname hrest hends).many 0
  exact (hdecorators [] [] _).trans (hwords [] [] goal)

/-- **Modifiers.** A word of the list with a blank behind it is taken away, also where nothing that
could be a name follows. -/
theorem modifiers_stripped (hword : word ∈ modifiers)
    (hrest : rest.head?.any CharSet.letters.mem = false)
    (hinked : rest.head?.any isSpace = false) :
    parameterModifiers.replaceAll (fun _ => []) (word.toList ++ ' ' :: rest) = rest := by
  have hletters := letters_of_mem_modifiers hword
  -- No decorator is read first, as a modifier starts with a letter.
  have hsign : ((word.toList ++ [' ']) ++ rest).head? ≠ some '@' := by
    intro hhead
    cases htext : word.toList with
    | nil =>
      rw [htext] at hhead
      exact absurd hhead (by simp)
    | cons c others =>
      rw [htext] at hhead hletters
      obtain rfl : c = '@' := Option.some.inj hhead
      exact absurd (hletters '@' List.mem_cons_self).1 (by decide)
  -- Another modifier would have to be the word itself, as a blank follows.
  have hothers (other : String) (hother : other ∈ modifiers) (hne : other ≠ word) :
      (lit other ++ spaces1).Refuses ((word.toList ++ [' ']) ++ rest) := by
    rw [List.append_assoc]
    refine refuses_word_in (fun c hc => (hletters c hc).2) ?_ ?_
    · intro c hc hmem
      obtain rfl : ' ' = c := Option.some.inj hc
      exact absurd (letters_of_mem_modifiers hother ' ' hmem).2 (by decide)
    · intro hsame
      exact absurd (String.toList_inj.mp hsame).symm hne
  -- No name stands in front of the rest.
  have hnone : ∀ c ∈ ([] : List Char), isSpace c = false := fun c hc => by contradiction
  have hmore : (words modifiers ++ spaces1).Refuses rest :=
    refuses_modifiers hnone hrest fun _ _ _ => hinked
  have hword := prefers_words_seq hword (takes_word word 0 hinked).prefers hothers
  have hwords := hword.many_once hmore (by simp)
  have hread := hwords [] [] some _ rfl
  rw [List.append_nil, Nat.zero_add] at hread
  have htext : word.toList ++ ' ' :: rest = (word.toList ++ [' ']) ++ rest := by simp
  rw [htext]
  apply replaceAll_front parameterModifiers_onlyAtStart (by simp)
  exact (decorators_takes_nothing hsign 0 [] [] _).trans hread

end CodeSurvey.Source
