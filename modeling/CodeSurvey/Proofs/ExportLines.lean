import CodeSurvey.Proofs.Matching
import CodeSurvey.Proofs.Places
import CodeSurvey.Source.Name

/-!
# Lines that export

A header may be spread over several lines. Still, none that has begun before runs over the place
where a line begins with the word for exports and another word: that word is no part of a header
but at its start, unless it is a name there, and behind a name comes a sign.

- `ExportsAt`: a line that exports begins at a place.
- `Clear`: no reading of a pattern runs over such a place.
- `clear_of_avoids`: patterns of which that can be seen.
- `clear_name`: a name with a sign behind it.
- `ClearBehind`: no reading runs over such a place but where it begins.
-/

namespace CodeSurvey.Pattern

open Text Source

/-! ## Places that are run over -/

/-- A line begins with the word for exports, and another word follows it. -/
structure ExportsAt (s : State) : Prop where
  line : startsLine s.before = true
  words : ∃ blanks c rest, s.after = "export".toList ++ (blanks ++ c :: rest) ∧ blanks ≠ [] ∧
    (∀ b ∈ blanks, isSpace b = true) ∧ isWord c = true

/-- The place lies between the others, perhaps at the first one, but not at the last one. -/
def Crosses (s u t : State) : Prop :=
  ∃ first rest, Passes s first u ∧ Passes u rest t ∧ rest ≠ []

/-- No reading of the pattern runs over the start of a line that exports. -/
def Clear (p : Pattern) : Prop :=
  ∀ s t u, p.Reads s t → Crosses s u t → ¬ExportsAt u

/-- No reading of the pattern runs over the start of a line that exports, unless it begins there. -/
def ClearBehind (p : Pattern) : Prop :=
  ∀ s t u, p.Reads s t → Crosses s u t → s.offset < u.offset → ¬ExportsAt u

variable {s t u v : State} {p q : Pattern} {first rest : List Char}

/-- What is left behind a first part. -/
theorem Passes.remainder (h : Passes s (first ++ rest) t) (hfirst : Passes s first u) :
    Passes u rest t where
  after := by
    have hafter := hfirst.after.symm.trans h.after
    rw [List.append_assoc] at hafter
    exact List.append_cancel_left hafter
  before := by
    rw [h.before, hfirst.before, List.reverse_append, List.append_assoc]
  offset := by
    rw [h.offset, hfirst.offset, List.length_append, Nat.add_assoc]

/-- A place between two others lies on one side of any third. -/
theorem Crosses.split {front back : List Char} (h : Crosses s u t) (hfront : Passes s front v)
    (hback : Passes v back t) : Crosses s u v ∨ Crosses v u t := by
  obtain ⟨first, rest, hfirst, hrest, hne⟩ := h
  rcases List.append_eq_append_iff.mp ((hfirst.trans hrest).eq (hfront.trans hback)) with
    ⟨more, rfl, rfl⟩ | ⟨more, rfl, rfl⟩
  · by_cases hmore : more = []
    · -- The place is where the parts meet.
      subst hmore
      rw [List.append_nil] at hfront
      have hhere : Passes s (first ++ []) u := by rw [List.append_nil]; exact hfirst
      exact .inr ⟨[], back, hhere.remainder hfront, hrest, hne⟩
    · exact .inl ⟨first, more, hfirst, hfront.remainder hfirst, hmore⟩
  · exact .inr ⟨more, rest, hfirst.remainder hfront, hrest, hne⟩

theorem not_crosses_self (s u : State) (kept : List Capture) :
    ¬Crosses s u { s with kept } := by
  rintro ⟨first, rest, hfirst, hrest, hne⟩
  have hnil := (hfirst.trans hrest).eq (Passes.refl s kept)
  exact hne (List.append_eq_nil_iff.mp hnil).2

/-- A line begins behind a line feed. -/
theorem mem_of_startsLine (h : Passes s first u) (hne : first ≠ [])
    (hline : startsLine u.before = true) : '\n' ∈ first := by
  obtain ⟨others, c, rfl⟩ := (List.eq_nil_or_concat' first).resolve_left hne
  rw [h.before, List.reverse_append] at hline
  have hc : c = '\n' := by simpa using hline
  rw [hc]
  exact List.mem_append_right _ (List.mem_singleton_self _)

/-! ## Patterns that avoid such places -/

theorem Clear.seq (hp : p.Clear) (hq : q.Clear) : (p ++ q).Clear := by
  rintro s t u ⟨v, hfirst, hrest⟩ hcross
  obtain ⟨_, hpasses⟩ := hfirst.exists_passes
  obtain ⟨_, hpasses'⟩ := hrest.exists_passes
  rcases hcross.split hpasses hpasses' with hcross | hcross
  · exact hp s v u hfirst hcross
  · exact hq v t u hrest hcross

theorem Clear.rounds (hp : p.Clear) (greedy : Bool) (least : Nat) (most : Option Nat) :
    (Pattern.rounds greedy least most p).Clear := by
  have hmoves (s t : State) (h : p.Reads s t) : ∃ text, Passes s text t := h.exists_passes
  have hrounds : ∀ (n : Nat) (s t u : State), Rounds p.Reads n s t → Crosses s u t →
      ¬ExportsAt u := by
    intro n
    induction n with
    | zero =>
      rintro s t u rfl hcross
      exact absurd hcross (not_crosses_self t u t.kept)
    | succ n ih =>
      rintro s t u ⟨v, hfirst, hrest⟩ hcross
      obtain ⟨_, hpasses⟩ := hmoves s v hfirst
      obtain ⟨_, hpasses'⟩ := Rounds.exists_passes hmoves hrest
      -- What a reading comes across lies in its first round or in a later one.
      rcases hcross.split hpasses hpasses' with hcross | hcross
      · exact hp s v u hfirst hcross
      · exact ih v t u hrest hcross
  intro s t u hreads hcross
  obtain ⟨n, hall⟩ := exists_rounds_of_reads hreads
  exact hrounds n s t u hall hcross

theorem Clear.capture (hp : p.Clear) (key : String) : (Pattern.capture key p).Clear := by
  rintro s _ u ⟨t, hreads, rfl⟩ ⟨first, rest, hfirst, hrest, hne⟩
  exact hp s t u hreads ⟨first, rest, hfirst, hrest.keep t.kept, hne⟩

/-- Whether the pattern cannot read the first letter of the word for exports, or could not but as
its own first character and stays on one line. -/
def shuns (p : Pattern) : Bool :=
  p.throughout (·.within (.compl (.char 'e'))) ||
    (p.throughout (·.within (.compl (.char '\n'))) && p.opens (·.within (.compl (.char 'e'))))

/-- Whether the pattern is put together from such patterns. -/
def avoids : Pattern → Bool
  | seq p q => (seq p q).shuns || (p.avoids && q.avoids)
  | rounds _ _ _ p | capture _ p => p.avoids
  | p => p.shuns

theorem clear_of_shuns (h : p.shuns = true) : p.Clear := by
  rintro s t u hreads ⟨first, rest, hfirst, hrest, hne⟩ ⟨hline, blanks, c, more, hafter, -⟩
  -- What is read at the place is the first letter of the word.
  obtain ⟨d, others, rfl⟩ := List.exists_cons_of_ne_nil hne
  obtain rfl : d = 'e' := (List.cons.inj (hrest.after.symm.trans hafter)).1
  rw [shuns, Bool.or_eq_true, Bool.and_eq_true] at h
  rcases h with hnowhere | ⟨hstays, hopens⟩
  · have hmem := mem_of_throughout hnowhere hreads (hfirst.trans hrest)
      (List.mem_append_right _ List.mem_cons_self)
    contradiction
  · by_cases hfirst' : first = []
    · subst hfirst'
      have hmem := mem_of_opens hopens hreads (hfirst.trans hrest)
      contradiction
    · have hmem := mem_of_throughout hstays hreads (hfirst.trans hrest)
        (List.mem_append_left _ (mem_of_startsLine hfirst hfirst' hline))
      contradiction

/-- **Avoided places.** A pattern of which that can be seen does not run over the start of a line
that exports. The induction is on the pattern. -/
theorem clear_of_avoids (h : p.avoids = true) : p.Clear := by
  induction p with
  | seq p q ihp ihq =>
    rw [avoids, Bool.or_eq_true, Bool.and_eq_true] at h
    rcases h with h | ⟨hp, hq⟩
    · exact clear_of_shuns h
    · exact (ihp hp).seq (ihq hq)
  | rounds greedy least most p ih => exact (ih h).rounds greedy least most
  | capture key p ih => exact (ih h).capture key
  | _ => exact clear_of_shuns h

/-! ## Names -/

/-- The first character that is no blank, in a text that begins with a part of a word or with blanks
before one, continues an identifier. -/
theorem identifierRest_of_find? {word blanks more : List Char} {c d : Char}
    (hword : ∀ x ∈ word, isWord x = true) (hblanks : ∀ b ∈ blanks, isSpace b = true)
    (hc : isWord c = true)
    (hd : (word ++ (blanks ++ c :: more)).find? (!CharSet.space.mem ·) = some d) :
    identifierRest.mem d = true := by
  have hkept {x : Char} (rest : List Char) (hx : isWord x = true) :
      (x :: rest).find? (!CharSet.space.mem ·) = some x := by
    have hspace : isSpace x = false := by
      by_contra hblank
      rw [isWord_of_isSpace (Bool.not_eq_false _ ▸ hblank)] at hx
      contradiction
    exact List.find?_cons_of_pos (by rw [CharSet.mem, hspace, Bool.not_false])
  have hmem {x : Char} (hx : isWord x = true) : identifierRest.mem x = true := by
    simp [identifierRest, CharSet.mem, hx]
  cases word with
  | nil =>
    have hskipped : blanks.find? (!CharSet.space.mem ·) = none :=
      List.find?_eq_none.mpr fun b hb => by simp [CharSet.mem, hblanks b hb]
    rw [List.nil_append, List.find?_append, hskipped, Option.none_or, hkept more hc] at hd
    rw [← Option.some.inj hd]
    exact hmem hc
  | cons x others =>
    have hx := hword x List.mem_cons_self
    rw [List.cons_append, hkept _ hx] at hd
    rw [← Option.some.inj hd]
    exact hmem hx

/-- A name at the start of a line that exports goes no further than the word for exports. -/
theorem exists_word_behind {name after blanks more : List Char} {c : Char}
    (hname : ∀ x ∈ name, identifierRest.mem x = true) (hne : blanks ≠ [])
    (hblanks : ∀ b ∈ blanks, isSpace b = true)
    (h : name ++ after = "export".toList ++ (blanks ++ c :: more)) :
    ∃ word, (∀ x ∈ word, isWord x = true) ∧ after = word ++ (blanks ++ c :: more) := by
  rcases List.append_eq_append_iff.mp h with ⟨word, hword, hleft⟩ | ⟨extra, hextra, hleft⟩
  · refine ⟨word, fun x hx => ?_, hleft⟩
    have hletters : "export".toList.all isWord = true := by decide
    exact List.all_eq_true.mp hletters x (hword ▸ List.mem_append_right _ hx)
  · cases extra with
    | nil => exact ⟨[], by simp, hleft.symm⟩
    | cons x extra =>
      -- Behind the word there is a blank, which is no part of a name.
      obtain ⟨b, others, rfl⟩ := List.exists_cons_of_ne_nil hne
      obtain rfl : b = x := (List.cons.inj hleft).1
      have hin := hname b (by rw [hextra]; simp)
      have hout := CharSet.mem_of_within (s := .space) (k := .compl identifierRest) (by decide)
        (hblanks b List.mem_cons_self)
      rw [CharSet.mem, hin] at hout
      contradiction

/-- **Names.** If a sign follows the name, perhaps behind blanks, the name is not the word with
which a line exports. -/
theorem clear_name (hp : p.throughout (·.within identifierRest) = true)
    (hq : q.beginsPast .space (.compl identifierRest) = true) (hclear : q.Clear) :
    (p ++ q).Clear := by
  rintro s t u ⟨v, hname, hrest⟩ hcross hexports
  obtain ⟨name, hpasses⟩ := hname.exists_passes
  obtain ⟨_, hpasses'⟩ := hrest.exists_passes
  have hall : ∀ x ∈ name, identifierRest.mem x = true :=
    fun x hx => mem_of_throughout hp hname hpasses hx
  rcases hcross.split hpasses hpasses' with ⟨first, others, hfirst, hothers, -⟩ | hcross
  · obtain ⟨hline, blanks, c, more, hafter, hne, hblanks, hc⟩ := hexports
    obtain rfl : first ++ others = name := (hfirst.trans hothers).eq hpasses
    -- There is no line feed in a name, so the line begins with it.
    obtain rfl : first = [] := by
      by_contra hfirst'
      have hfeed := hall _ (List.mem_append_left _ (mem_of_startsLine hfirst hfirst' hline))
      contradiction
    -- What stands behind the name begins with a word, and so not with a sign.
    rw [hothers.after] at hafter
    obtain ⟨word, hword, hbehind⟩ := exists_word_behind hall hne hblanks hafter
    obtain ⟨d, hd, hsign⟩ := exists_find?_of_reads hq hrest
    rw [hbehind] at hd
    rw [CharSet.mem, identifierRest_of_find? hword hblanks hc hd] at hsign
    contradiction
  · exact hclear v t u hrest hcross hexports

/-! ## Beginnings -/

theorem ClearBehind.seq (hp : p.ClearBehind) (hq : q.Clear) : (p ++ q).ClearBehind := by
  rintro s t u ⟨v, hfirst, hrest⟩ hcross hbehind
  obtain ⟨_, hpasses⟩ := hfirst.exists_passes
  obtain ⟨_, hpasses'⟩ := hrest.exists_passes
  rcases hcross.split hpasses hpasses' with hcross | hcross
  · exact hp s v u hfirst hcross hbehind
  · exact hq v t u hrest hcross

/-- A condition on the start adds nothing to what is read. -/
theorem ClearBehind.anchored (hp : p.ClearBehind) (a : Anchor) : (anchor a ++ p).ClearBehind := by
  rintro _ t u ⟨s, ⟨-, rfl⟩, hreads⟩ hcross hbehind
  exact hp _ t u hreads hcross hbehind

theorem ClearBehind.capture (hp : p.ClearBehind) (key : String) :
    (Pattern.capture key p).ClearBehind := by
  rintro s _ u ⟨t, hreads, rfl⟩ ⟨first, rest, hfirst, hrest, hne⟩
  exact hp s t u hreads ⟨first, rest, hfirst, hrest.keep t.kept, hne⟩

theorem ClearBehind.opt (hp : p.ClearBehind) : (Pattern.opt p).ClearBehind := by
  intro s t u hreads hcross hbehind
  rcases reads_opt.mp hreads with rfl | hreads
  · exact absurd hcross (not_crosses_self t u t.kept)
  · exact hp s t u hreads hcross hbehind

/-- What stays on one line runs over no start of a line but its own. -/
theorem clearBehind_of_line (hp : p.throughout (·.within (.compl (.char '\n'))) = true) :
    p.ClearBehind := by
  rintro s t u hreads ⟨first, rest, hfirst, hrest, hne⟩ hbehind hexports
  have hfirst' : first ≠ [] := by
    rintro rfl
    have hoffset := hfirst.offset
    rw [List.length_nil] at hoffset
    omega
  have hmem := mem_of_throughout hp hreads (hfirst.trans hrest)
    (List.mem_append_left _ (mem_of_startsLine hfirst hfirst' hexports.line))
  contradiction

end CodeSurvey.Pattern
