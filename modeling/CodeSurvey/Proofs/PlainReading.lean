import CodeSurvey.Proofs.Reading
import Mathlib.Logic.Relation

/-!
# Patterns that commit to nothing

Most patterns have no part that stands by its first match or looks elsewhere. A search for such a
pattern finds a reading whenever there is one, and what it reads in one place it reads wherever the
same text stands.

- `finds_reads`: a search that has a reading to follow succeeds.
- `Reads.fits`: what is read in one place can be read wherever it stands.
- `Refines`: what one pattern reads another reads too.
-/

namespace CodeSurvey.Pattern

/-! ## Searches find readings -/

/-- Whether a pattern commits to nothing and looks nowhere else, and every further round of it reads
something. -/
def plain : Pattern → Bool
  | empty | one _ | anchor _ => true
  | seq p q | alt p q => p.plain && q.plain
  | rounds _ _ _ p => p.plain && p.surely fun _ => true
  | capture _ p => p.plain
  | again _ _ | ahead _ _ | behind _ _ _ | atomic _ | whether _ _ _ => false

/-- A search succeeds if the goal accepts a state behind a step. -/
def Finds (body : Search) (step : State → State → Prop) : Prop :=
  ∀ s goal t, step s t → (goal t).isSome = true → (body s goal).isSome = true

section Rounds

variable {body : Search} {step : State → State → Prop}

theorem Finds.exactly (hbody : Finds body step) (n : Nat) :
    Finds (exactly body n) (Rounds step n) := by
  induction n with
  | zero =>
    rintro s goal t rfl hgoal
    exact hgoal
  | succ n ih =>
    rintro s goal t ⟨u, hfirst, hrest⟩ hgoal
    exact hbody s _ u hfirst (ih u goal t hrest hgoal)

/-- If one more round may be tried, rounds succeed with it or without it, in whatever order. -/
theorem isSome_upToRounds (body : Search) (greedy : Bool) (x : Char) (fuel : List Char)
    {most last : Option Nat} {s : State} (goal : Goal)
    (hgo : (most == some 0 || last == some s.offset) = false) :
    (upToRounds body greedy (x :: fuel) most last s goal).isSome =
      ((body s fun t => upToRounds body greedy fuel (most.map (· - 1)) (some s.offset) t
        goal).isSome || (goal s).isSome) := by
  rw [Pattern.upToRounds, if_neg (by rw [hgo]; decide)]
  cases greedy with
  | true =>
    rw [if_pos rfl]
    dsimp only
    split <;> simp_all
  | false =>
    rw [if_neg Bool.false_ne_true]
    dsimp only
    split <;> simp_all

/-- Further rounds are found if each of them moves on. The induction is on the rounds; the text left
bounds how many there can be, so the fuel suffices. -/
theorem Finds.upToRounds (hbody : Finds body step)
    (hmoves : ∀ s t, step s t → t.after.length < s.after.length ∧ s.offset < t.offset)
    (greedy : Bool) :
    ∀ (further : Nat) (fuel : List Char) (most last : Option Nat) (s : State) (goal : Goal)
      (t : State), (∀ m ∈ most, further ≤ m) → (∀ place ∈ last, place < s.offset) →
      s.after.length < fuel.length → Rounds step further s t → (goal t).isSome = true →
      (upToRounds body greedy fuel most last s goal).isSome = true := by
  intro further
  induction further with
  | zero =>
    rintro fuel most last s goal t - - - rfl hgoal
    cases fuel with
    | nil => exact hgoal
    | cons x fuel =>
      by_cases hgo : (most == some 0 || last == some t.offset) = true
      · rw [Pattern.upToRounds, if_pos hgo]
        exact hgoal
      · rw [isSome_upToRounds body greedy x fuel goal (Bool.eq_false_iff.mpr hgo), hgoal,
          Bool.or_true]
  | succ further ih =>
    rintro fuel most last s goal t hmost hlast hfuel ⟨u, hfirst, hrest⟩ hgoal
    obtain ⟨x, fuel, rfl⟩ := List.exists_cons_of_length_pos (Nat.zero_lt_of_lt hfuel)
    obtain ⟨hless, hmoved⟩ := hmoves s u hfirst
    -- The first round moves on, so there is fuel for the others, and the search goes on at all.
    have hround : (body s fun t => Pattern.upToRounds body greedy fuel (most.map (· - 1))
        (some s.offset) t goal).isSome = true := by
      refine hbody s _ u hfirst (ih fuel _ _ u goal t ?_ ?_ ?_ hrest hgoal)
      · intro m hm
        obtain ⟨bound, hbound', rfl⟩ := Option.map_eq_some_iff.mp hm
        exact Nat.le_sub_one_of_lt (hmost bound hbound')
      · rintro place ⟨⟩
        exact hmoved
      · rw [List.length_cons] at hfuel
        omega
    have hgo : (most == some 0 || last == some s.offset) = false := by
      rw [Bool.or_eq_false_iff, beq_eq_false_iff_ne, beq_eq_false_iff_ne]
      constructor
      · rintro rfl
        exact absurd (hmost 0 rfl) (Nat.not_succ_le_zero further)
      · rintro rfl
        exact absurd (hlast _ rfl) (Nat.lt_irrefl _)
    rw [isSome_upToRounds body greedy x fuel goal hgo, hround, Bool.true_or]

end Rounds

/-- **Searches find readings.** If a pattern that commits to nothing can read on to a state that the
goal accepts, a search succeeds. -/
theorem finds_reads {p : Pattern} (hp : p.plain = true) : Finds p.run p.Reads := by
  induction p with
  | empty =>
    rintro s goal t rfl hgoal
    exact hgoal
  | one set =>
    rintro s goal t ⟨c, rest, hafter, hmem, rfl⟩ hgoal
    simp only [run, hafter, hmem, if_true]
    exact hgoal
  | seq p q ihp ihq =>
    rw [plain, Bool.and_eq_true] at hp
    rintro s goal t ⟨u, hfirst, hrest⟩ hgoal
    exact ihp hp.1 s _ u hfirst (ihq hp.2 u goal t hrest hgoal)
  | alt p q ihp ihq =>
    rw [plain, Bool.and_eq_true] at hp
    intro s goal t h hgoal
    rw [run]
    -- If the first choice succeeds, it does not matter whether it was the one that was read.
    split
    · rfl
    · rename_i hleft
      rcases h with h | h
      · have hfound := ihp hp.1 s goal t h hgoal
        rw [hleft] at hfound
        contradiction
      · exact ihq hp.2 s goal t h hgoal
  | rounds greedy least most p ih =>
    rw [plain, Bool.and_eq_true] at hp
    rintro s goal t ⟨u, hleast, further, hbound, hrest⟩ hgoal
    -- A round that reads nothing would end the search too early; there is none.
    have hmoves (s t : State) (h : p.Reads s t) :
        t.after.length < s.after.length ∧ s.offset < t.offset := by
      have hmeets : Meets (fun _ => True) s t := meets_of_surely (fun _ _ _ _ => trivial) hp.2 h
      exact hmeets.lt
    refine Finds.exactly (ih hp.1) least s _ u hleast ?_
    refine Finds.upToRounds (ih hp.1) hmoves greedy further _ _ none u goal t ?_ (by simp)
      (Nat.lt_succ_self _) hrest hgoal
    intro m hm
    obtain ⟨bound, hbound', rfl⟩ := Option.map_eq_some_iff.mp hm
    exact hbound bound hbound'
  | capture key p ih =>
    rintro s goal t ⟨u, hreads, rfl⟩ hgoal
    exact ih hp s _ u hreads hgoal
  | anchor a =>
    rintro s goal t ⟨hholds, rfl⟩ hgoal
    rw [run, if_pos hholds]
    exact hgoal
  | again => contradiction
  | ahead => contradiction
  | behind => contradiction
  | atomic => contradiction
  | whether => contradiction

/-! ## Readings elsewhere -/

/-- Whether what a pattern reads does not depend on what stands around it. -/
def free : Pattern → Bool
  | empty | one _ => true
  | seq p q | alt p q => p.free && q.free
  | rounds _ _ _ p | capture _ p => p.free
  | again _ _ | anchor _ | ahead _ _ | behind _ _ _ | atomic _ | whether _ _ _ => false

/-- Wherever the text comes next, a step can pass over it. -/
def StepFits (step : State → State → Prop) (text : List Char) : Prop :=
  ∀ s rest, s.after = text ++ rest → ∃ t, step s t ∧ Passes s text t

/-- Wherever the text comes next, the pattern can read it. -/
def Fits (p : Pattern) (text : List Char) : Prop :=
  StepFits p.Reads text

theorem StepFits.rounds {step : State → State → Prop}
    (hstep : ∀ s t text, step s t → Passes s text t → StepFits step text)
    (hmoves : ∀ s t, step s t → ∃ text, Passes s text t) :
    ∀ {n : Nat} {s t : State} {text : List Char}, Rounds step n s t → Passes s text t →
      StepFits (Rounds step n) text
  | 0, s, _, text, rfl, hpasses => by
    obtain rfl : text = [] := hpasses.eq (Passes.refl s s.kept)
    exact fun s' rest _ => ⟨s', rfl, Passes.refl s' s'.kept⟩
  | n + 1, s, t, text, ⟨u, hfirst, hrest⟩, hpasses => by
    obtain ⟨first, hpasses₁⟩ := hmoves s u hfirst
    obtain ⟨others, hpasses₂⟩ := Rounds.exists_passes hmoves hrest
    obtain rfl : text = first ++ others := hpasses.eq (hpasses₁.trans hpasses₂)
    intro s' rest hafter
    rw [List.append_assoc] at hafter
    obtain ⟨u', hfirst', hpasses₁'⟩ := hstep s u first hfirst hpasses₁ s' _ hafter
    have hafter' : u'.after = others ++ rest :=
      List.append_cancel_left (hpasses₁'.after.symm.trans hafter)
    obtain ⟨t', hrest', hpasses₂'⟩ :=
      StepFits.rounds hstep hmoves hrest hpasses₂ u' rest hafter'
    exact ⟨t', ⟨u', hfirst', hrest'⟩, hpasses₁'.trans hpasses₂'⟩

/-- Texts that fit are read one after another. -/
theorem StepFits.trans {first second : State → State → Prop} {text text' : List Char}
    (h : StepFits first text) (h' : StepFits second text') :
    StepFits (fun s t => ∃ u, first s u ∧ second u t) (text ++ text') := by
  intro s rest hafter
  rw [List.append_assoc] at hafter
  obtain ⟨u, hfirst, hpasses⟩ := h s _ hafter
  have hafter' : u.after = text' ++ rest :=
    List.append_cancel_left (hpasses.after.symm.trans hafter)
  obtain ⟨t, hsecond, hpasses'⟩ := h' u rest hafter'
  exact ⟨t, ⟨u, hfirst, hsecond⟩, hpasses.trans hpasses'⟩

/-- **What is read fits everywhere.** A text that a free pattern has read in one place can be read
wherever it stands. The induction is on the pattern. -/
theorem Reads.fits {p : Pattern} (hp : p.free = true) :
    ∀ {s t : State} {text : List Char}, p.Reads s t → Passes s text t → p.Fits text := by
  induction p with
  | empty =>
    rintro s t text rfl hpasses
    obtain rfl : text = [] := hpasses.eq (Passes.refl _ _)
    exact fun s' rest _ => ⟨s', rfl, Passes.refl s' s'.kept⟩
  | one set =>
    rintro s t text ⟨c, rest, hafter, hmem, rfl⟩ hpasses
    obtain rfl : text = [c] := hpasses.eq (Passes.pass hafter)
    exact fun s' rest' hafter' =>
      ⟨s'.pass c rest', ⟨c, rest', hafter', hmem, rfl⟩, Passes.pass hafter'⟩
  | seq p q ihp ihq =>
    rw [free, Bool.and_eq_true] at hp
    rintro s t text ⟨u, hfirst, hrest⟩ hpasses
    obtain ⟨first, hpasses₁⟩ := hfirst.exists_passes
    obtain ⟨others, hpasses₂⟩ := hrest.exists_passes
    obtain rfl : text = first ++ others := hpasses.eq (hpasses₁.trans hpasses₂)
    exact StepFits.trans (ihp hp.1 hfirst hpasses₁) (ihq hp.2 hrest hpasses₂)
  | alt p q ihp ihq =>
    rw [free, Bool.and_eq_true] at hp
    rintro s t text (h | h) hpasses s' rest hafter
    · obtain ⟨t', hreads, hpasses'⟩ := ihp hp.1 h hpasses s' rest hafter
      exact ⟨t', .inl hreads, hpasses'⟩
    · obtain ⟨t', hreads, hpasses'⟩ := ihq hp.2 h hpasses s' rest hafter
      exact ⟨t', .inr hreads, hpasses'⟩
  | rounds greedy least most p ih =>
    -- The text is cut where the rounds that there have to be end.
    rintro s t text ⟨u, hleast, further, hbound, hrest⟩ hpasses
    have hmoves (s t : State) (h : p.Reads s t) : ∃ text, Passes s text t := h.exists_passes
    have hfits (s t : State) (text : List Char) (h : p.Reads s t) (h' : Passes s text t) :
        StepFits p.Reads text := ih hp h h'
    obtain ⟨first, hpasses₁⟩ := Rounds.exists_passes hmoves hleast
    obtain ⟨others, hpasses₂⟩ := Rounds.exists_passes hmoves hrest
    obtain rfl : text = first ++ others := hpasses.eq (hpasses₁.trans hpasses₂)
    have hfirst := StepFits.rounds hfits hmoves hleast hpasses₁
    have hothers := StepFits.rounds hfits hmoves hrest hpasses₂
    intro s' rest hafter
    obtain ⟨t', ⟨u', hleast', hrest'⟩, hpasses'⟩ := hfirst.trans hothers s' rest hafter
    exact ⟨t', ⟨u', hleast', further, hbound, hrest'⟩, hpasses'⟩
  | capture key p ih =>
    rintro s t text ⟨u, hreads, rfl⟩ hpasses s' rest hafter
    obtain ⟨u', hreads', hpasses'⟩ := ih hp hreads (hpasses.keep u.kept) s' rest hafter
    exact ⟨_, ⟨u', hreads', rfl⟩, hpasses'.keep _⟩
  | again => contradiction
  | anchor => contradiction
  | ahead => contradiction
  | behind => contradiction
  | atomic => contradiction
  | whether => contradiction

/-- Characters of one set are read by rounds of it. -/
theorem rounds_one {set : CharSet} {text : List Char} (h : ∀ c ∈ text, set.mem c = true) :
    ∀ {s : State} {rest : List Char}, s.after = text ++ rest →
      ∃ t, Rounds (one set).Reads text.length s t ∧ Passes s text t := by
  induction text with
  | nil => exact fun _ => ⟨_, rfl, Passes.refl _ _⟩
  | cons c text ih =>
    intro s rest hafter
    have hpass : Passes s [c] (s.pass c (text ++ rest)) := Passes.pass hafter
    have hnext : (s.pass c (text ++ rest)).after = text ++ rest := rfl
    obtain ⟨t, hrounds, hpasses⟩ := ih (fun d hd => h d (List.mem_cons_of_mem c hd)) hnext
    exact ⟨t, ⟨_, ⟨c, _, hafter, h c List.mem_cons_self, rfl⟩, hrounds⟩, hpass.trans hpasses⟩

/-- Characters of a set fit rounds of it. -/
theorem fits_many {set : CharSet} {text : List Char} (h : ∀ c ∈ text, set.mem c = true) :
    (many (one set)).Fits text := by
  intro s rest hafter
  obtain ⟨t, hrounds, hpasses⟩ := rounds_one h hafter
  exact ⟨t, ⟨s, rfl, text.length, by simp, hrounds⟩, hpasses⟩

/-- So do they fit rounds that there have to be one of, if there are any. -/
theorem fits_many1 {set : CharSet} {text : List Char} (hne : text ≠ [])
    (h : ∀ c ∈ text, set.mem c = true) : (many1 (one set)).Fits text := by
  obtain ⟨c, others, rfl⟩ := List.exists_cons_of_ne_nil hne
  obtain ⟨hc, hothers⟩ := List.forall_mem_cons.mp h
  intro s rest hafter
  have hpass : Passes s [c] (s.pass c (others ++ rest)) := Passes.pass hafter
  have hnext : (s.pass c (others ++ rest)).after = others ++ rest := rfl
  obtain ⟨t, hrounds, hpasses⟩ := rounds_one hothers hnext
  exact ⟨t, ⟨_, ⟨_, ⟨c, _, hafter, hc, rfl⟩, rfl⟩, others.length, by simp, hrounds⟩,
    hpass.trans hpasses⟩

/-- What is kept makes no difference to what fits. -/
theorem Fits.capture {p : Pattern} {text : List Char} (h : p.Fits text) (key : String) :
    (Pattern.capture key p).Fits text := by
  intro s rest hafter
  obtain ⟨t, hreads, hpasses⟩ := h s rest hafter
  exact ⟨_, ⟨t, hreads, rfl⟩, hpasses.keep _⟩

/-- What is optional is read once or not at all. -/
theorem reads_opt {p : Pattern} {s t : State} : (opt p).Reads s t ↔ t = s ∨ p.Reads s t := by
  constructor
  · rintro ⟨_, rfl, further, hbound, hrounds⟩
    match further, hbound 1 rfl, hrounds with
    | 0, _, hrounds => exact .inl hrounds
    | 1, _, ⟨_, hreads, rfl⟩ => exact .inr hreads
  · rintro (rfl | hreads)
    · exact ⟨t, rfl, 0, by simp, rfl⟩
    · exact ⟨s, rfl, 1, by simp, t, hreads, rfl⟩

/-- What a free pattern has read fits. -/
theorem Reads.exists_fits {p : Pattern} (hp : p.free = true) {s t : State} (h : p.Reads s t) :
    ∃ text, Passes s text t ∧ p.Fits text := by
  obtain ⟨text, hpasses⟩ := h.exists_passes
  exact ⟨text, hpasses, h.fits hp hpasses⟩

theorem free_seq (p q : Pattern) : (p ++ q).free = (p.free && q.free) :=
  rfl

/-- Words are free. -/
theorem free_lit (word : String) : (lit word).free = true := by
  rw [lit]
  induction word.toList with
  | nil => rfl
  | cons c letters ih =>
    cases letters with
    | nil => rfl
    | cons d letters => exact ih

/-- A word fits the pattern that asks for it. -/
theorem fits_lit (word : String) : (lit word).Fits word.toList := by
  rw [lit]
  induction word.toList with
  | nil => exact fun s rest _ => ⟨s, rfl, Passes.refl s s.kept⟩
  | cons c letters ih =>
    have hone : (one (.char c)).Fits [c] := fun s rest hafter =>
      ⟨s.pass c rest, ⟨c, rest, hafter, by simp [CharSet.mem], rfl⟩, Passes.pass hafter⟩
    cases letters with
    | nil => exact hone
    | cons d letters => exact StepFits.trans hone ih

/-- A word reads itself. -/
theorem passes_of_reads_lit {word : String} :
    ∀ {s t : State}, (lit word).Reads s t → Passes s word.toList t := by
  rw [lit]
  induction word.toList with
  | nil =>
    rintro s t rfl
    exact Passes.refl _ _
  | cons c letters ih =>
    have hone {s t : State} (h : (one (.char c)).Reads s t) : Passes s [c] t := by
      obtain ⟨d, rest, hafter, hmem, rfl⟩ := h
      obtain rfl : c = d := by simpa [CharSet.mem] using hmem
      exact Passes.pass hafter
    intro s t h
    cases letters with
    | nil => exact hone h
    | cons d letters =>
      obtain ⟨u, hfirst, hrest⟩ := h
      exact (hone hfirst).trans (ih hrest)

/-! ## One pattern for another -/

/-- What the first pattern reads, the second reads too. -/
def Refines (p q : Pattern) : Prop :=
  ∀ s t, p.Reads s t → q.Reads s t

theorem Refines.refl (p : Pattern) : Refines p p :=
  fun _ _ h => h

theorem Refines.seq {p p' q q' : Pattern} (hp : Refines p p') (hq : Refines q q') :
    Refines (p ++ q) (p' ++ q') := by
  rintro s t ⟨u, hfirst, hrest⟩
  exact ⟨u, hp s u hfirst, hq u t hrest⟩

/-- A larger set reads more. -/
theorem refines_one {set set' : CharSet} (h : ∀ c, set.mem c = true → set'.mem c = true) :
    Refines (one set) (one set') := by
  rintro s t ⟨c, rest, hafter, hmem, rfl⟩
  exact ⟨c, rest, hafter, h c hmem, rfl⟩

theorem Refines.rounds {p q : Pattern} (h : Refines p q) (greedy : Bool) (least : Nat)
    (most : Option Nat) : Refines (rounds greedy least most p) (rounds greedy least most q) := by
  have hrounds : ∀ (n : Nat) (s t : State), Rounds p.Reads n s t → Rounds q.Reads n s t := by
    intro n
    induction n with
    | zero => exact fun s t h => h
    | succ n ih =>
      rintro s t ⟨u, hfirst, hrest⟩
      exact ⟨u, h s u hfirst, ih u t hrest⟩
  rintro s t ⟨u, hleast, further, hbound, hrest⟩
  exact ⟨u, hrounds _ s u hleast, further, hbound, hrounds _ u t hrest⟩

/-- One of several words reads as all of them do. -/
theorem refines_words {words : List String} {word : String} (h : word ∈ words) :
    Refines (lit word) (Pattern.words words) := by
  induction words with
  | nil => contradiction
  | cons first words ih =>
    cases words with
    | nil =>
      rw [List.mem_singleton.mp h]
      exact Refines.refl _
    | cons second words =>
      intro s t hreads
      rcases List.mem_cons.mp h with rfl | h
      · exact .inl hreads
      · exact .inr (ih h s t hreads)

/-- A text that fits one pattern fits another that reads more. -/
theorem Fits.refine {p q : Pattern} {text : List Char} (h : p.Fits text) (hpq : Refines p q) :
    q.Fits text := by
  intro s rest hafter
  obtain ⟨t, hreads, hpasses⟩ := h s rest hafter
  exact ⟨t, hpq s t hreads, hpasses⟩

/-- A sequence reads one part after the other. Composition is associative, so it makes no difference
how a sequence is put together. -/
theorem reads_seq (p q : Pattern) : (p ++ q).Reads = Relation.Comp p.Reads q.Reads :=
  rfl

end CodeSurvey.Pattern
