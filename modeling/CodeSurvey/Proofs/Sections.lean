import CodeSurvey.Proofs.LineFeeds
import CodeSurvey.Proofs.Places
import CodeSurvey.Proofs.Spans

/-!
# Texts in sections

A text is made up of sections if each of them has a header at the start of a line, and the pattern
for headers is refused wherever else a line starts. Then the headers are what is found.

- `Passed`: a text that a pattern is refused in.
- `searchFrom_passed`: such a text is passed over.
- `Section`, `sectionsText`, `places`: sections, their text, and the text before each header.
- `findAll_sections`: the headers are found, and nothing else.
-/

namespace CodeSurvey.Pattern

open Text

/-! ## Passing over lines -/

/-- The pattern matches only at the start of a line. -/
def OnlyAtLines (p : Pattern) : Prop :=
  ∀ before text offset kept goal, startsLine before = false →
    p.run ⟨before, text, offset, kept⟩ goal = none

/-- Wherever a line starts in the text the pattern is refused, where `fresh` tells whether one
starts with the text, and `rest` stands behind it. -/
def Passed (p : Pattern) (rest : List Char) : (fresh : Bool) → (text : List Char) → Prop
  | _, [] => True
  | fresh, c :: text =>
    (fresh = true → p.Refuses (c :: (text ++ rest))) ∧ Passed p rest (c == '\n') text

section

variable {p : Pattern} {text first second rest before : List Char}

theorem Anchored.onlyAtLines (h : p.Anchored) : p.OnlyAtLines :=
  h.away

/-- A condition on the start of a line makes a pattern one of these. -/
theorem onlyAtLines_lineStart (p : Pattern) : (lineStart ++ p).OnlyAtLines :=
  fun _ _ _ _ _ haway => run_lineStart_away haway

/-- So does one that can be read only there. -/
theorem onlyAtLines_of_reads (h : ∀ s t, p.Reads s t → startsLine s.before = true) :
    p.OnlyAtLines := by
  intro before text offset kept goal haway
  by_contra hrun
  obtain ⟨final, hfinal⟩ := Option.ne_none_iff_exists'.mp hrun
  obtain ⟨t, hreads, -⟩ := exists_reads_of_run p _ goal final hfinal
  rw [h _ _ hreads] at haway
  contradiction

theorem OnlyAtLines.seq (h : p.OnlyAtLines) (q : Pattern) : (p ++ q).OnlyAtLines := by
  intro before text offset kept goal haway
  rw [run_seq]
  exact h _ _ _ _ _ haway

/-- Such a pattern is anchored if it begins with a letter. -/
theorem OnlyAtLines.anchored (h : p.OnlyAtLines) (hopens : p.opens (·.within .letters) = true)
    (hsurely : p.surely (fun _ => true) = true) : p.Anchored where
  away := h
  noLetter text htext := by
    cases text with
    | nil => exact refuses_nil hsurely
    | cons c text => exact refuses_of_opens hopens hsurely htext

/-- In the middle of a line nothing is asked of the first character. -/
theorem Passed.weaken (h : Passed p rest true text) (fresh : Bool) : Passed p rest fresh text := by
  cases text with
  | nil => exact trivial
  | cons c text => exact ⟨fun _ => h.1 rfl, h.2⟩

/-- Two texts of the kind make one. -/
theorem Passed.append (hsecond : Passed p rest (startsLine (first.reverse ++ before)) second) :
    Passed p (second ++ rest) (startsLine before) first →
      Passed p rest (startsLine before) (first ++ second) := by
  induction first generalizing before with
  | nil => exact fun _ => hsecond
  | cons c first ih =>
    intro hfirst
    rw [List.reverse_cons, List.append_assoc] at hsecond
    have hrest := hfirst.2
    rw [← startsLine_cons c before] at hrest
    refine ⟨fun hfresh => ?_, ?_⟩
    · have hrefuses := hfirst.1 hfresh
      rw [← List.append_assoc] at hrefuses
      exact hrefuses
    · rw [← startsLine_cons c before]
      exact ih hsecond hrest

/-- A text of the kind may follow any other. -/
theorem Passed.append_fresh (hfirst : Passed p (second ++ rest) true first)
    (hsecond : Passed p rest true second) : Passed p rest true (first ++ second) := by
  have hboth : Passed p rest (startsLine []) (first ++ second) :=
    Passed.append (hsecond.weaken _) hfirst
  exact hboth

/-- What is passed over in the middle of a line is so at its start, if the pattern is refused
there. -/
theorem Passed.fresh (h : Passed p rest false text) (hrefuses : p.Refuses (text ++ rest)) :
    Passed p rest true text := by
  cases text with
  | nil => exact trivial
  | cons c text => exact ⟨fun _ => hrefuses, h.2⟩

/-- Where a line starts in such a text the pattern is refused. -/
theorem Passed.refuses (h : Passed p rest (startsLine before) (first ++ second))
    (hne : second ≠ []) (hline : startsLine (first.reverse ++ before) = true) :
    p.Refuses (second ++ rest) := by
  induction first generalizing before with
  | nil =>
    obtain ⟨c, others, rfl⟩ := List.exists_cons_of_ne_nil hne
    exact h.1 hline
  | cons c first ih =>
    have hrest := h.2
    rw [← startsLine_cons c before] at hrest
    rw [List.reverse_cons, List.append_assoc] at hline
    exact ih hrest hline

/-- What is passed over may begin behind the rest of a line. -/
theorem Passed.behind_line (htext : Passed p rest true text) {line : List Char}
    (h : '\n' ∉ line) : Passed p rest false (line ++ '\n' :: text) := by
  induction line with
  | nil => exact ⟨fun hfresh => absurd hfresh Bool.false_ne_true, htext⟩
  | cons c line ih =>
    obtain ⟨hc, hline⟩ := not_or.mp (mt List.mem_cons.mpr h)
    have hfalse : (c == '\n') = false := beq_eq_false_iff_ne.mpr (Ne.symm hc)
    refine ⟨fun hfresh => absurd hfresh Bool.false_ne_true, ?_⟩
    rw [hfalse]
    exact ih hline

/-- Lines are passed over if the pattern is refused in front of each of them. -/
theorem passed_linesText {above : List (List Char)} (hline : ∀ line ∈ above, '\n' ∉ line)
    (h : ∀ line ∈ above, ∀ rest, p.Refuses (line ++ '\n' :: rest)) (rest : List Char) :
    Passed p rest true (linesText above) := by
  induction above with
  | nil => exact trivial
  | cons line above ih =>
    obtain ⟨hfeed, hothers⟩ := List.forall_mem_cons.mp hline
    obtain ⟨hrefuses, hnext⟩ := List.forall_mem_cons.mp h
    have hfirst : p.Refuses ((line ++ '\n' :: linesText above) ++ rest) := by
      rw [List.append_assoc]
      exact hrefuses (linesText above ++ rest)
    have hrest := ih hothers hnext
    rw [linesText_cons]
    cases line with
    | nil => exact ⟨fun _ => hfirst, hrest⟩
    | cons c line =>
      obtain ⟨hc, hfeed⟩ := not_or.mp (mt List.mem_cons.mpr hfeed)
      have hfalse : (c == '\n') = false := beq_eq_false_iff_ne.mpr (Ne.symm hc)
      refine ⟨fun _ => hfirst, ?_⟩
      rw [hfalse]
      exact hrest.behind_line hfeed

/-- A text that is refused from each of its places on is passed over. -/
theorem passed_of_refuses (h : ∀ c front back, text = front ++ c :: back →
    p.Refuses (c :: (back ++ rest))) (fresh : Bool) : Passed p rest fresh text := by
  induction text generalizing fresh with
  | nil => exact trivial
  | cons c text ih =>
    refine ⟨fun _ => h c [] text rfl, ih (fun d front back htext => ?_) _⟩
    exact h d (c :: front) back (congrArg (c :: ·) htext)

/-- So is a quiet text, by a pattern that needs a letter. -/
theorem passed_of_quiet (hp : p.Anchored) (rest : List Char) :
    ∀ {fresh : Bool}, Quiet fresh text → Passed p rest fresh text := by
  induction text with
  | nil => exact fun _ => trivial
  | cons c text ih =>
    intro fresh h
    exact ⟨fun hfresh => hp.noLetter _ (by simpa using h.1 hfresh), ih h.2⟩

/-! ## Searches -/

/-- The pattern is sought behind a text that is passed over. -/
theorem searchFrom_passed (hp : p.OnlyAtLines) (subject : List Char) :
    ∀ (before : List Char) (offset : Nat), Passed p rest (startsLine before) text →
      p.searchFrom subject (text ++ rest) before offset false =
        p.searchFrom subject rest (text.reverse ++ before) (offset + text.length) false := by
  induction text with
  | nil => intro before offset _; rfl
  | cons c text ih =>
    intro before offset h
    have hnone (goal : Goal) : p.run ⟨before, c :: (text ++ rest), offset, []⟩ goal = none := by
      cases hline : startsLine before with
      | true => exact h.1 hline _ _ _ _
      | false => exact hp _ _ _ _ _ hline
    have hrest := h.2
    rw [← startsLine_cons c before] at hrest
    rw [List.cons_append, searchFrom, matchHere?, hnone]
    simp only [Option.map_none]
    rw [ih (c :: before) (offset + 1) hrest]
    simp [Nat.add_assoc, Nat.add_comm 1]

/-- Nothing is found in a text that is passed over to its end. -/
theorem searchFrom_passed_eq_none (hp : p.OnlyAtLines) (hend : p.Refuses []) (subject : List Char)
    (offset : Nat) (h : Passed p [] (startsLine before) text) :
    p.searchFrom subject text before offset false = none := by
  have hskip := searchFrom_passed hp subject before offset h
  rw [List.append_nil] at hskip
  rw [hskip, searchFrom, matchHere?, hend]
  rfl

/-- A text that is passed over from its start to its end has no match. -/
theorem findAll_passed_eq_nil (hp : p.OnlyAtLines) (hend : p.Refuses [])
    (h : Passed p [] true text) : p.findAll text = [] := by
  have hstart : Passed p [] (startsLine []) text := h
  rw [findAll, findAllFrom, searchFrom_passed_eq_none hp hend text 0 hstart]

/-- The match of a header is found behind a text that is passed over, and the search goes on behind
it. -/
theorem findAllFrom_passed (hp : p.OnlyAtLines) {subject header : List Char} {fuel offset : Nat}
    {kept : List Capture} (htext : Passed p (header ++ rest) (startsLine before) text)
    (hheader : header ≠ [])
    (hmatch : p.matchHere? subject
        ⟨text.reverse ++ before, header ++ rest, offset + text.length, []⟩ false =
      some ⟨subject, offset + text.length, offset + text.length + header.length, kept⟩) :
    p.findAllFrom subject (fuel + 1) ⟨before, text ++ (header ++ rest), offset, []⟩ false =
      ⟨subject, offset + text.length, offset + text.length + header.length, kept⟩ ::
        p.findAllFrom subject fuel
          ⟨header.reverse ++ (text.reverse ++ before), rest,
            offset + text.length + header.length, []⟩ false := by
  refine findAllFrom_of_searchFrom hheader ?_
  rw [searchFrom_passed hp subject before offset htext]
  exact searchFrom_of_header hheader hmatch

/-- A pattern that is refused from each place of a text on is sought behind it. -/
theorem searchFrom_refused (subject : List Char) :
    ∀ (before : List Char) (offset : Nat), (∀ c front back, text = front ++ c :: back →
      p.Refuses (c :: (back ++ rest))) →
      p.searchFrom subject (text ++ rest) before offset false =
        p.searchFrom subject rest (text.reverse ++ before) (offset + text.length) false := by
  induction text with
  | nil => intro before offset _; rfl
  | cons c text ih =>
    intro before offset h
    rw [List.cons_append, searchFrom_of_refuses subject before offset (h c [] text rfl),
      ih _ _ fun d front back htext => h d (c :: front) back (congrArg (c :: ·) htext)]
    simp [Nat.add_assoc, Nat.add_comm 1]

/-- What is found behind a text that is passed over does not begin in it. -/
theorem length_le_start_of_passed (hp : p.OnlyAtLines) (h : Passed p rest true text) {m : Match}
    (hm : m ∈ p.findAll (text ++ rest)) : text.length ≤ m.start := by
  obtain ⟨s, nonempty, hwithin, -, hmatch⟩ := matches_of_mem_findAll hm
  obtain ⟨t, -, rfl⟩ := exists_reads_of_matchHere? hmatch
  show text.length ≤ s.offset
  by_contra hbefore
  -- The place stands in the text, so the pattern fails there.
  have hback : text.drop s.offset ≠ [] := by
    rw [Ne, List.drop_eq_nil_iff]
    omega
  have hparts : text = text.take s.offset ++ text.drop s.offset := (List.take_append_drop _ _).symm
  have hlength : (text.take s.offset).length = s.offset := List.length_take_of_le (by omega)
  have hafter : s.after = text.drop s.offset ++ rest := by
    rw [← hwithin.drop, List.drop_append_of_le_length (by omega)]
  have hbehind : s.before = (text.take s.offset).reverse := by
    rw [← List.reverse_inj, ← hwithin.take, List.reverse_reverse,
      List.take_append_of_le_length (by omega)]
  have hnone (goal : Goal) : p.run s goal = none := by
    cases hline : startsLine s.before with
    | false => exact hp _ _ _ _ _ hline
    | true =>
      rw [hparts] at h
      have hrefuses := h.refuses hback (by rwa [List.append_nil, ← hbehind])
      rw [← hafter] at hrefuses
      exact hrefuses _ _ _ _
  rw [matchHere?, hnone] at hmatch
  contradiction

/-- Behind the end of a line a line starts. -/
theorem startsLine_of_endsLine (h : EndsLine text) : startsLine text.reverse = true := by
  rcases h with rfl | hlast
  · rfl
  · have hstarts := startsLine_of_getLast? hlast []
    rwa [List.append_nil] at hstarts

/-- The header behind a text that is passed over is the first match. -/
theorem exists_findAll_passed (hp : p.OnlyAtLines) {header : List Char} {kept : List Capture}
    (htext : Passed p (header ++ rest) true text) (hheader : header ≠ [])
    (hmatch : p.matchHere? (text ++ (header ++ rest))
        ⟨text.reverse, header ++ rest, text.length, []⟩ false =
      some ⟨text ++ (header ++ rest), text.length, text.length + header.length, kept⟩) :
    ∃ others, p.findAll (text ++ (header ++ rest)) =
      ⟨text ++ (header ++ rest), text.length, text.length + header.length, kept⟩ :: others := by
  have hfound : ∃ others, p.findAllFrom (text ++ (header ++ rest))
      (2 * (text ++ (header ++ rest)).length + 1 + 1) ⟨[], text ++ (header ++ rest), 0, []⟩ false =
        ⟨_, 0 + text.length, 0 + text.length + header.length, kept⟩ :: others :=
    ⟨_, findAllFrom_passed hp htext hheader (by rwa [List.append_nil, Nat.zero_add])⟩
  rwa [Nat.zero_add] at hfound

/-- **The first span.** A header behind a text that all rules pass over is the first span if the
other rules are refused there. -/
theorem exists_scan_passed {α : Type} {rules : List (Extract.Rule α)} {r : Extract.Rule α}
    (hr : r ∈ rules) (hlines : ∀ r' ∈ rules, r'.pattern.OnlyAtLines) {header : List Char}
    {kept : List Capture} (htext : ∀ r' ∈ rules, Passed r'.pattern (header ++ rest) true text)
    (hothers : ∀ r' ∈ rules, r' ≠ r → r'.pattern.Refuses (header ++ rest)) (hheader : header ≠ [])
    (hmatch : r.pattern.matchHere? (text ++ (header ++ rest))
        ⟨text.reverse, header ++ rest, text.length, []⟩ false =
      some ⟨text ++ (header ++ rest), text.length, text.length + header.length, kept⟩) :
    ∃ others, Extract.scan rules (text ++ (header ++ rest)) =
      ⟨r.tag, text ++ (header ++ rest), text.length, text.length + header.length, kept⟩ ::
        others := by
  obtain ⟨behind, hfound⟩ := exists_findAll_passed (hlines r hr) (htext r hr) hheader hmatch
  have hlength := List.length_pos_iff.mpr hheader
  refine Extract.exists_scan_cons hr (hfound ▸ List.mem_cons_self) fun r' hr' m hm hstart => ?_
  by_cases hsame : r' = r
  · subst hsame
    refine ⟨rfl, ?_⟩
    have hapart := findAll_pairwise r'.pattern (text ++ (header ++ rest))
    rw [hfound] at hm hapart
    rcases List.mem_cons.mp hm with rfl | hm
    · rfl
    · have hstop := (List.pairwise_cons.mp hapart).1 m hm
      simp only at hstop hstart
      omega
  · -- The other rules do not even match where the header begins.
    obtain ⟨c, more, rfl⟩ := List.exists_cons_of_ne_nil hheader
    have hfirst : Passed r'.pattern (more ++ rest) (startsLine (text.reverse ++ [])) [c] :=
      ⟨fun _ => hothers r' hr' hsame, trivial⟩
    have hpassed : Passed r'.pattern (more ++ rest) true (text ++ [c]) :=
      Passed.append hfirst (htext r' hr')
    have hsplit : text ++ (c :: more ++ rest) = (text ++ [c]) ++ (more ++ rest) := by simp
    rw [hsplit] at hm
    have hbehind := length_le_start_of_passed (hlines r' hr') hpassed hm
    rw [List.length_append, List.length_singleton] at hbehind
    simp only at hstart
    omega

end

/-! ## Sections -/

/-- A part of a text: what stands before its header, the header, and what stands behind it. -/
structure Section where
  lead : List Char
  header : List Char
  body : List Char

/-- The text of a section. -/
def Section.text (s : Section) : List Char :=
  s.lead ++ (s.header ++ s.body)

/-- The text of sections one after the other. -/
def sectionsText (sections : List Section) (ending : List Char) : List Char :=
  sections.flatMap Section.text ++ ending

variable {α : Type} {toSection : α → Section}

/-- What the sections are made from, each with the text before its header. -/
def places (toSection : α → Section) : (before : List Char) → List α → List (List Char × α)
  | _, [] => []
  | before, x :: xs =>
    (before ++ (toSection x).lead, x) :: places toSection (before ++ (toSection x).text) xs

/-- The text from the second part of a section on. -/
theorem append_sectionsText_cons (text : List Char) (x : α) (xs : List α) (ending : List Char) :
    text ++ sectionsText ((x :: xs).map toSection) ending =
      (text ++ (toSection x).lead) ++ ((toSection x).header ++
        ((toSection x).body ++ sectionsText (xs.map toSection) ending)) := by
  simp [sectionsText, Section.text]

theorem map_snd_places (toSection : α → Section) (xs : List α) :
    ∀ before : List Char, (places toSection before xs).map Prod.snd = xs := by
  induction xs with
  | nil => exact fun _ => rfl
  | cons x xs ih => exact fun before => congrArg (x :: ·) (ih _)

/-- Behind the text before a header stand the header, its body and the rest. -/
theorem exists_of_mem_places {xs : List α} (ending : List Char) :
    ∀ {before : List Char} {place : List Char × α}, place ∈ places toSection before xs →
      place.2 ∈ xs ∧ ∃ rest, before ++ sectionsText (xs.map toSection) ending =
        place.1 ++ ((toSection place.2).header ++ ((toSection place.2).body ++ rest)) := by
  induction xs with
  | nil => intro before place hmem; exact absurd hmem List.not_mem_nil
  | cons x xs ih =>
    intro before place hmem
    rcases List.mem_cons.mp hmem with rfl | hmem
    · exact ⟨List.mem_cons_self, _, append_sectionsText_cons before x xs ending⟩
    · obtain ⟨hx, rest, hrest⟩ := ih hmem
      refine ⟨List.mem_cons_of_mem _ hx, rest, ?_⟩
      rw [← hrest]
      simp [sectionsText]

/-- In front of a header stands the lead of its section, and that stands at the start or is not the
first one. -/
theorem lead_of_mem_places {xs : List α} :
    ∀ {before : List Char} {place : List Char × α}, place ∈ places toSection before xs →
      ∃ front, place.1 = front ++ (toSection place.2).lead ∧
        (front = before ∨ place.2 ∈ xs.tail) := by
  induction xs with
  | nil => intro before place hmem; exact absurd hmem List.not_mem_nil
  | cons x xs ih =>
    intro before place hmem
    rcases List.mem_cons.mp hmem with rfl | hmem
    · exact ⟨before, rfl, .inl rfl⟩
    · obtain ⟨front, hfront, -⟩ := ih hmem
      exact ⟨front, hfront, .inr (exists_of_mem_places [] hmem).1⟩

/-- The pattern matches the headers, with these captures, and is refused wherever else a line
starts. -/
structure Sectioned (p : Pattern) (toSection : α → Section) (captures : α → Nat → List Capture)
    (xs : List α) (ending : List Char) : Prop where
  lead : ∀ x ∈ xs, ∀ rest, Passed p ((toSection x).header ++ rest) true (toSection x).lead
  first : ∀ x ∈ xs.head?, (toSection x).lead = [] ∨ (toSection x).lead.getLast? = some '\n'
  others : ∀ x ∈ xs.tail, (toSection x).lead.getLast? = some '\n'
  header : ∀ x ∈ xs, ∀ subject before rest offset, startsLine before = true →
    p.matchHere? subject ⟨before, (toSection x).header ++ rest, offset, []⟩ false =
      some ⟨subject, offset, offset + (toSection x).header.length, captures x offset⟩
  inked : ∀ x ∈ xs, (toSection x).header ≠ []
  line : ∀ x ∈ xs, '\n' ∉ (toSection x).header
  body : ∀ x ∈ xs, ∀ rest, Passed p rest false (toSection x).body
  ending : Passed p [] true ending
  refuses : p.Refuses []

variable {p : Pattern} {captures : α → Nat → List Capture} {xs : List α} {ending : List Char}

/-- No line starts behind a part of one. -/
theorem startsLine_of_line {text : List Char} (hne : text ≠ []) (hline : '\n' ∉ text)
    (before : List Char) : startsLine (text.reverse ++ before) = false := by
  obtain rfl | ⟨front, c, rfl⟩ := List.eq_nil_or_concat text
  · contradiction
  · have hc : c ≠ '\n' := fun heq => hline (by simp [heq])
    simpa using hc

/-- The matches of headers at their places. -/
def sectionMatches (subject : List Char) (toSection : α → Section)
    (captures : α → Nat → List Capture) (found : List (List Char × α)) : List Match :=
  found.map fun (before, x) =>
    ⟨subject, before.length, before.length + (toSection x).header.length,
      captures x before.length⟩

/-- Without the first section the others are sections of the kind. -/
theorem Sectioned.tail {x : α} (h : Sectioned p toSection captures (x :: xs) ending) :
    Sectioned p toSection captures xs ending where
  lead y hy := h.lead y (List.mem_cons_of_mem x hy)
  first y hy := .inr (h.others y (List.mem_of_mem_head? hy))
  others y hy := h.others y (List.mem_of_mem_tail hy)
  header y hy := h.header y (List.mem_cons_of_mem x hy)
  inked y hy := h.inked y (List.mem_cons_of_mem x hy)
  line y hy := h.line y (List.mem_cons_of_mem x hy)
  body y hy := h.body y (List.mem_cons_of_mem x hy)
  ending := h.ending
  refuses := h.refuses

/-- The search goes on from section to section. The induction is over the sections; `text` is what
is left of the one before. -/
theorem findAllFrom_sections (hp : p.OnlyAtLines) (subject : List Char) (xs : List α) :
    ∀ (before text : List Char) (fuel : Nat), Sectioned p toSection captures xs ending →
      (∀ rest, Passed p rest (startsLine before) text) →
      (∀ x ∈ xs.head?, startsLine ((toSection x).lead.reverse ++ (text.reverse ++ before)) = true) →
      xs.length < fuel →
      p.findAllFrom subject fuel
          ⟨before, text ++ sectionsText (xs.map toSection) ending, before.length, []⟩ false =
        sectionMatches subject toSection captures (places toSection (before.reverse ++ text) xs) := by
  induction xs with
  | nil =>
    intro before text fuel h htext _ hfuel
    obtain ⟨fuel, rfl⟩ : ∃ fewer, fuel = fewer + 1 := ⟨fuel - 1, by omega⟩
    have hall : Passed p [] (startsLine before) (text ++ ending) :=
      Passed.append (h.ending.weaken _) (htext _)
    have hnone : p.searchFrom subject (text ++ sectionsText ([].map toSection) ending) before
        before.length false = none :=
      searchFrom_passed_eq_none hp h.refuses subject before.length hall
    rw [findAllFrom]
    simp only [hnone]
    rfl
  | cons x xs ih =>
    intro before text fuel h htext hline hfuel
    obtain ⟨fuel, rfl⟩ : ∃ fewer, fuel = fewer + 1 := ⟨fuel - 1, by omega⟩
    have hx : x ∈ x :: xs := List.mem_cons_self
    -- Behind the header the rest of the section is to be passed over.
    have hbehind : startsLine ((toSection x).header.reverse ++
        ((text ++ (toSection x).lead).reverse ++ before)) = false :=
      startsLine_of_line (h.inked x hx) (h.line x hx) _
    have hstart : startsLine ((text ++ (toSection x).lead).reverse ++ before) = true := by
      rw [List.reverse_append, List.append_assoc]
      exact hline x rfl
    have hlead (rest : List Char) : Passed p ((toSection x).header ++ rest) (startsLine before)
        (text ++ (toSection x).lead) :=
      Passed.append ((h.lead x hx rest).weaken _) (htext _)
    have hmatch := h.header x hx subject _
      ((toSection x).body ++ sectionsText (xs.map toSection) ending)
      (before.length + (text ++ (toSection x).lead).length) hstart
    have hrest := ih _ (toSection x).body fuel h.tail (fun rest => hbehind ▸ h.body x hx rest)
      (fun y hy => startsLine_of_getLast? (h.others y (List.mem_of_mem_head? hy)) _)
      (Nat.lt_of_succ_lt_succ hfuel)
    -- The offsets of the search are the lengths of what stands before.
    have hplace : (before.reverse ++ text ++ (toSection x).lead).length =
        before.length + (text ++ (toSection x).lead).length := by
      simp only [List.length_append, List.length_reverse]
      omega
    have hlength : ((toSection x).header.reverse ++
        ((text ++ (toSection x).lead).reverse ++ before)).length =
          before.length + (text ++ (toSection x).lead).length + (toSection x).header.length := by
      simp only [List.length_append, List.length_reverse]
      omega
    have hbefore : ((toSection x).header.reverse ++
        ((text ++ (toSection x).lead).reverse ++ before)).reverse ++ (toSection x).body =
          before.reverse ++ text ++ (toSection x).text := by
      simp [Section.text]
    rw [hlength, hbefore] at hrest
    rw [append_sectionsText_cons, findAllFrom_passed hp (hlead _) (h.inked x hx) hmatch, hrest]
    simp only [sectionMatches, places, List.map_cons, hplace]

/-- No section is empty. -/
theorem length_le_sectionsText (h : ∀ x ∈ xs, (toSection x).header ≠ []) (ending : List Char) :
    xs.length ≤ (sectionsText (xs.map toSection) ending).length := by
  induction xs with
  | nil => exact Nat.zero_le _
  | cons x xs ih =>
    obtain ⟨hx, hxs⟩ := List.forall_mem_cons.mp h
    have hparts : sectionsText ((x :: xs).map toSection) ending =
        (toSection x).lead ++ ((toSection x).header ++
          ((toSection x).body ++ sectionsText (xs.map toSection) ending)) :=
      append_sectionsText_cons [] x xs ending
    have hrest := ih hxs
    have hpositive := List.length_pos_iff.mpr hx
    rw [hparts]
    simp only [List.length_append, List.length_cons]
    omega

/-- **Sections.** The pattern is found at the headers and nowhere else. -/
theorem findAll_sections (hp : p.OnlyAtLines) (h : Sectioned p toSection captures xs ending) :
    p.findAll (sectionsText (xs.map toSection) ending) =
      sectionMatches (sectionsText (xs.map toSection) ending) toSection captures
        (places toSection [] xs) := by
  have hfuel : xs.length < 2 * (sectionsText (xs.map toSection) ending).length + 2 := by
    have hle := length_le_sectionsText h.inked ending
    omega
  refine findAllFrom_sections hp _ xs [] [] _ h (fun _ => trivial) (fun x hx => ?_) hfuel
  rcases h.first x hx with hempty | hlast
  · rw [hempty]
    rfl
  · exact startsLine_of_getLast? hlast _

end CodeSurvey.Pattern
