import CodeSurvey.Proofs.Matching
import CodeSurvey.Proofs.PlainReading
import Mathlib.Data.List.TakeWhile

/-!
# Readings from one place

Two states may stand at one place of a text and differ in what has been kept on the way. Patterns
that look at the text only treat them alike. Where the readings of such patterns end, and how they
begin, is often settled by the text: by the first character that does not belong to what is read.

- `SamePlace`: two states that differ in what they keep at most.
- `Covers`: what one pattern reads another reads too, from the same place to the same place.
- `passes_until`: a reading that stops in front of the first character of another kind.
- `SamePlace.until`: two such readings end at the same place.
- `refuses_of_opens`, `refuses_of_beginsPast`: texts that begin differently are refused.
- `not_apart`: patterns that begin differently do not read from the same place.
- `span?_of_reads`: what is kept under a key that a pattern does not name stays kept.
-/

namespace CodeSurvey.Pattern

/-! ## Places -/

/-- The states stand at the same place of the same text. -/
structure SamePlace (s t : State) : Prop where
  before : s.before = t.before
  after : s.after = t.after
  offset : s.offset = t.offset

variable {s s' t t' u u' : State} {p p' q q' : Pattern} {text : List Char}

theorem SamePlace.refl (s : State) (kept : List Capture) : SamePlace s { s with kept } :=
  ⟨rfl, rfl, rfl⟩

theorem SamePlace.symm (h : SamePlace s t) : SamePlace t s :=
  ⟨h.before.symm, h.after.symm, h.offset.symm⟩

theorem SamePlace.trans (h : SamePlace s t) (h' : SamePlace t u) : SamePlace s u :=
  ⟨h.before.trans h'.before, h.after.trans h'.after, h.offset.trans h'.offset⟩

/-- What is kept makes no difference to the place. -/
theorem SamePlace.keep (h : SamePlace s t) (kept kept' : List Capture) :
    SamePlace { s with kept } { t with kept := kept' } :=
  ⟨h.before, h.after, h.offset⟩

/-- One text leads from the same place to the same place. -/
theorem SamePlace.of_passes (h : SamePlace s s') (hpasses : Passes s text t)
    (hpasses' : Passes s' text t') : SamePlace t t' where
  before := by rw [hpasses.before, hpasses'.before, h.before]
  after := List.append_cancel_left (hpasses.after.symm.trans (h.after.trans hpasses'.after))
  offset := by rw [hpasses.offset, hpasses'.offset, h.offset]

/-- Conditions on a place depend on the place only. -/
theorem SamePlace.holds (h : SamePlace s t) (a : Anchor) : s.holds a = t.holds a := by
  cases a <;> simp only [State.holds, State.wordSides, h.before, h.after]

/-! ## One reading for another -/

/-- From one state on, a step leads to where another leads from the same place. -/
def StepCovers (step step' : State → State → Prop) : Prop :=
  ∀ s s' t, SamePlace s s' → step s t → ∃ t', step' s' t' ∧ SamePlace t t'

/-- What the first pattern reads, the second reads too, whatever either of them keeps. -/
def Covers (p q : Pattern) : Prop :=
  StepCovers p.Reads q.Reads

theorem StepCovers.rounds {step step' : State → State → Prop} (h : StepCovers step step') :
    ∀ n, StepCovers (Rounds step n) (Rounds step' n)
  | 0, s, s', _, hsame, rfl => ⟨s', rfl, hsame⟩
  | n + 1, s, s', t, hsame, ⟨u, hfirst, hrest⟩ => by
    obtain ⟨u', hfirst', hsame'⟩ := h s s' u hsame hfirst
    obtain ⟨t', hrest', hend⟩ := h.rounds n u u' t hsame' hrest
    exact ⟨t', ⟨u', hfirst', hrest'⟩, hend⟩

theorem Covers.seq (hp : Covers p p') (hq : Covers q q') : Covers (p ++ q) (p' ++ q') := by
  rintro s s' t hsame ⟨u, hfirst, hrest⟩
  obtain ⟨u', hfirst', hsame'⟩ := hp s s' u hsame hfirst
  obtain ⟨t', hrest', hend⟩ := hq u u' t hsame' hrest
  exact ⟨t', ⟨u', hfirst', hrest'⟩, hend⟩

theorem Covers.rounds (h : Covers p q) (greedy : Bool) (least : Nat) (most : Option Nat) :
    Covers (rounds greedy least most p) (rounds greedy least most q) := by
  rintro s s' t hsame ⟨u, hleast, further, hbound, hrest⟩
  obtain ⟨u', hleast', hsame'⟩ := StepCovers.rounds h least s s' u hsame hleast
  obtain ⟨t', hrest', hend⟩ := StepCovers.rounds h further u u' t hsame' hrest
  exact ⟨t', ⟨u', hleast', further, hbound, hrest'⟩, hend⟩

/-- Keeping what is read makes no difference to the place. -/
theorem Covers.capture (h : Covers p q) (key : String) : Covers p (capture key q) := by
  intro s s' t hsame hreads
  obtain ⟨t', hreads', hend⟩ := h s s' t hsame hreads
  exact ⟨_, ⟨t', hreads', rfl⟩, hend.trans (SamePlace.refl t' _)⟩

theorem Covers.of_capture (h : Covers p q) (key : String) : Covers (Pattern.capture key p) q := by
  rintro s s' _ hsame ⟨t, hreads, rfl⟩
  obtain ⟨t', hreads', hend⟩ := h s s' t hsame hreads
  exact ⟨t', hreads', (SamePlace.refl t _).symm.trans hend⟩

/-- A pattern covers what it makes optional. -/
theorem Covers.opt (h : Covers p q) : Covers p (opt q) := by
  intro s s' t hsame hreads
  obtain ⟨t', hreads', hend⟩ := h s s' t hsame hreads
  exact ⟨t', reads_opt.mpr (.inr hreads'), hend⟩

/-- Rounds of which there need not be any may be left out. -/
theorem Covers.skip (h : Covers p q) (greedy : Bool) (most : Option Nat) (r : Pattern) :
    Covers p (Pattern.rounds greedy 0 most r ++ q) := by
  intro s s' t hsame hreads
  obtain ⟨t', hreads', hend⟩ := h s s' t hsame hreads
  exact ⟨t', ⟨s', ⟨s', rfl, 0, fun m _ => Nat.zero_le _, rfl⟩, hreads'⟩, hend⟩

/-- **Places decide.** A pattern that commits to nothing reads from any state at the same place. The
induction is on the pattern. -/
theorem Covers.refl (hp : p.plain = true) : Covers p p := by
  induction p with
  | empty =>
    rintro s s' _ hsame rfl
    exact ⟨s', rfl, hsame⟩
  -- The same character comes next, as the places are the same.
  | one set =>
    rintro s s' _ hsame ⟨c, rest, hafter, hmem, rfl⟩
    have hafter' : s'.after = c :: rest := hsame.after.symm.trans hafter
    exact ⟨s'.pass c rest, ⟨c, rest, hafter', hmem, rfl⟩,
      hsame.of_passes (Passes.pass hafter) (Passes.pass hafter')⟩
  | seq p q ihp ihq =>
    rw [plain, Bool.and_eq_true] at hp
    exact (ihp hp.1).seq (ihq hp.2)
  | alt p q ihp ihq =>
    rw [plain, Bool.and_eq_true] at hp
    rintro s s' t hsame (h | h)
    · obtain ⟨t', h', hend⟩ := ihp hp.1 s s' t hsame h
      exact ⟨t', .inl h', hend⟩
    · obtain ⟨t', h', hend⟩ := ihq hp.2 s s' t hsame h
      exact ⟨t', .inr h', hend⟩
  | rounds greedy least most p ih =>
    rw [plain, Bool.and_eq_true] at hp
    exact (ih hp.1).rounds greedy least most
  | capture key p ih => exact ((ih hp).capture key).of_capture key
  | anchor a =>
    rintro s s' _ hsame ⟨hholds, rfl⟩
    exact ⟨s', ⟨hsame.holds a ▸ hholds, rfl⟩, hsame⟩
  -- These look at what was kept, or give nothing back, so they are not plain.
  | again => contradiction
  | ahead => contradiction
  | behind => contradiction
  | atomic => contradiction
  | whether => contradiction

/-- What a larger pattern reads covers what a smaller one reads. -/
theorem Refines.covers (h : Refines p q) (hp : p.plain = true) : Covers p q := by
  intro s s' t hsame hreads
  obtain ⟨t', hreads', hend⟩ := Covers.refl hp s s' t hsame hreads
  exact ⟨t', h s' t' hreads', hend⟩

/-! ## Where a reading stops -/

/-- Whether the first pattern reads characters of the set only, and the second one surely begins
with another. -/
def stopsBefore (set : CharSet) (p q : Pattern) : Bool :=
  p.throughout (·.within set) && q.opens (·.within (.compl set)) && q.surely fun _ => true

/-- **Up to another kind.** A reading of characters of one kind, with a character of another kind
behind it, reads exactly those characters that come first. -/
theorem passes_until {set : CharSet} (hstops : stopsBefore set p q = true) (h : p.Reads s u)
    (h' : q.Reads u t) : Passes s (s.after.takeWhile set.mem) u := by
  rw [stopsBefore, Bool.and_eq_true, Bool.and_eq_true] at hstops
  obtain ⟨⟨hinside, hopens⟩, hsurely⟩ := hstops
  obtain ⟨front, hfront⟩ := h.exists_passes
  obtain ⟨d, others, hrest⟩ := exists_cons_of_reads hsurely h'
  have hall : ∀ d ∈ front, set.mem d = true := fun d hd => mem_of_throughout hinside h hfront hd
  have hother : (CharSet.compl set).mem d = true := mem_of_opens hopens h' hrest
  have hmem : set.mem d = false := by simpa [CharSet.mem] using hother
  have htake : s.after.takeWhile set.mem = front := by
    rw [hfront.after, hrest.after, List.takeWhile_append_of_pos hall, List.cons_append,
      List.takeWhile_cons_of_neg (ne_true_of_eq_false hmem), List.append_nil]
  rw [htake]
  exact hfront

/-- Two such readings from the same place end at the same place. -/
theorem SamePlace.until {set : CharSet} (hsame : SamePlace s s')
    (hstops : stopsBefore set p q = true) (h : p.Reads s u) (hq : q.Reads u t)
    (hstops' : stopsBefore set p' q' = true) (h' : p'.Reads s' u') (hq' : q'.Reads u' t') :
    SamePlace u u' := by
  have hpasses' := passes_until hstops' h' hq'
  rw [← hsame.after] at hpasses'
  exact hsame.of_passes (passes_until hstops h hq) hpasses'

/-- A word leads from the same place to the same place. -/
theorem SamePlace.word {word : String} (hsame : SamePlace s s') (h : (lit word).Reads s t)
    (h' : (lit word).Reads s' t') : SamePlace t t' :=
  hsame.of_passes (passes_of_reads_lit h) (passes_of_reads_lit h')

/-- A text before a word is what comes before one of its letters, up to the letters of the word in
front of that one. -/
theorem exists_passes_before_word {word : String} {letter : Char} (hletter : letter ∈ word.toList)
    (hp : p.throughout (·.within (.compl (.char letter))) = true) (h : p.Reads s u)
    (hword : (lit word).Reads u t) : ∃ front, Passes s front u ∧
      s.after.takeWhile (· != letter) = front ++ word.toList.takeWhile (· != letter) := by
  obtain ⟨front, hfront⟩ := h.exists_passes
  have hall : ∀ d ∈ front, (d != letter) = true := by
    intro d hd
    have hmem := mem_of_throughout hp h hfront hd
    have hne : letter ≠ d := by simpa [CharSet.mem] using hmem
    exact bne_iff_ne.mpr hne.symm
  refine ⟨front, hfront, ?_⟩
  rw [hfront.after, List.takeWhile_append_of_pos hall, (passes_of_reads_lit hword).after,
    List.takeWhile_append, if_neg]
  -- The letter stands in the word, so not all of the word is taken.
  intro hlength
  have hwhole := (List.takeWhile_prefix (· != letter)).eq_of_length hlength
  simpa using List.takeWhile_eq_self_iff.mp hwhole letter hletter

/-- If one of its letters stands nowhere before it, a word is found at one place only. -/
theorem SamePlace.before_word {word : String} {letter : Char} (hsame : SamePlace s s')
    (hletter : letter ∈ word.toList) (hp : p.throughout (·.within (.compl (.char letter))) = true)
    (h : p.Reads s u) (hword : (lit word).Reads u t)
    (hp' : p'.throughout (·.within (.compl (.char letter))) = true) (h' : p'.Reads s' u')
    (hword' : (lit word).Reads u' t') : SamePlace u u' := by
  obtain ⟨front, hfront, hends⟩ := exists_passes_before_word hletter hp h hword
  obtain ⟨front', hfront', hends'⟩ := exists_passes_before_word hletter hp' h' hword'
  rw [hsame.after, hends'] at hends
  rw [List.append_cancel_right hends] at hfront'
  exact hsame.of_passes hfront hfront'

/-! ## How a reading begins -/

/-- Whether the pattern surely reads a character of the second set, and up to it only characters of
the first one, which are none of the second. -/
def beginsPast (skipped set : CharSet) (p : Pattern) : Bool :=
  p.opensPast (·.within skipped) (fun s => s.within (.compl skipped) && s.within set) &&
    p.surely fun s => s.within (.compl skipped) && s.within set

/-- The first character that is not skipped is of the second set. -/
theorem exists_find?_of_reads {skipped set : CharSet} (hp : p.beginsPast skipped set = true)
    (h : p.Reads s t) :
    ∃ c, s.after.find? (!skipped.mem ·) = some c ∧ set.mem c = true := by
  rw [beginsPast, Bool.and_eq_true] at hp
  have hcheck (k : CharSet) (c : Char)
      (hk : (k.within (.compl skipped) && k.within set) = true) (hmem : k.mem c = true) :
      skipped.mem c = false ∧ set.mem c = true := by
    rw [Bool.and_eq_true] at hk
    have hout := CharSet.mem_of_within hk.1 hmem
    exact ⟨by simpa [CharSet.mem] using hout, CharSet.mem_of_within hk.2 hmem⟩
  obtain ⟨read, hpasses, d, hd, hkept, -⟩ := meets_of_surely hcheck hp.2 h
  have hfound : (read.find? (!skipped.mem ·)).isSome = true :=
    List.find?_isSome.mpr ⟨d, hd, by rw [hkept, Bool.not_false]⟩
  obtain ⟨c, hc⟩ := Option.isSome_iff_exists.mp hfound
  refine ⟨c, ?_, opensPast_of_reads (fun _ _ => CharSet.mem_of_within) hcheck hp.1 h read hpasses
    c hc⟩
  rw [hpasses.after, List.find?_append, hc, Option.some_or]

/-- Where a pattern cannot read, it is refused. -/
theorem refuses_of_not_reads (h : ∀ before offset kept t, ¬p.Reads ⟨before, text, offset, kept⟩ t) :
    p.Refuses text := by
  intro before offset kept goal
  by_contra hrun
  obtain ⟨final, hfinal⟩ := Option.ne_none_iff_exists'.mp hrun
  obtain ⟨t, hreads, -⟩ := exists_reads_of_run p _ goal final hfinal
  exact h before offset kept t hreads

/-- What has to read something is refused at the end of a text. -/
theorem refuses_nil (hsurely : p.surely (fun _ => true) = true) : p.Refuses [] :=
  refuses_of_not_reads fun _ _ _ _ hreads => by
    obtain ⟨c, others, hpasses⟩ := exists_cons_of_reads hsurely hreads
    exact absurd hpasses.after (List.cons_ne_nil c _).symm

/-- A pattern that begins with a character of a set is refused in front of any other. -/
theorem refuses_of_opens {set : CharSet} {c : Char} {rest : List Char}
    (hopens : p.opens (·.within set) = true) (hsurely : p.surely (fun _ => true) = true)
    (hmem : set.mem c = false) : p.Refuses (c :: rest) := by
  apply refuses_of_not_reads
  intro before offset kept t hreads
  obtain ⟨d, others, hpasses⟩ := exists_cons_of_reads hsurely hreads
  obtain ⟨rfl, -⟩ := List.cons.inj hpasses.after
  rw [mem_of_opens hopens hreads hpasses] at hmem
  contradiction

/-- A pattern that begins past what is skipped with a character of a set is refused if the first
character past it is another. -/
theorem refuses_of_beginsPast {skipped set : CharSet} {c : Char}
    (hp : p.beginsPast skipped set = true) (hfirst : text.find? (!skipped.mem ·) = some c)
    (hc : set.mem c = false) : p.Refuses text := by
  apply refuses_of_not_reads
  intro before offset kept t hreads
  obtain ⟨d, hd, hmem⟩ := exists_find?_of_reads hp hreads
  obtain rfl := Option.some.inj (hfirst.symm.trans hd)
  rw [hc] at hmem
  contradiction

/-- **Different beginnings.** Patterns of which the first characters past what is skipped are
different do not read from the same place. -/
theorem not_apart {skipped first second : CharSet} (hsame : SamePlace s s')
    (hp : p.beginsPast skipped first = true) (hq : q.beginsPast skipped second = true)
    (hapart : first.within (.compl second) = true) (h : p.Reads s t) : ¬q.Reads s' t' := by
  intro h'
  obtain ⟨c, hc, hfirst⟩ := exists_find?_of_reads hp h
  obtain ⟨d, hd, hsecond⟩ := exists_find?_of_reads hq h'
  rw [hsame.after, hd] at hc
  obtain rfl := Option.some.inj hc
  have hout := CharSet.mem_of_within hapart hfirst
  simp [CharSet.mem, hsecond] at hout

/-! ## What stays kept -/

theorem Rounds.span?_eq {step : State → State → Prop} {key : String}
    (hstep : ∀ s t, step s t → t.span? key = s.span? key) :
    ∀ {n : Nat} {s t : State}, Rounds step n s t → t.span? key = s.span? key
  | 0, _, _, rfl => rfl
  | _ + 1, s, _, ⟨u, hfirst, hrest⟩ =>
    (Rounds.span?_eq hstep hrest).trans (hstep s u hfirst)

/-- What is kept under a key stays kept where the key is not named again. -/
theorem span?_of_reads {key : String} (hp : p.plain = true) :
    ∀ {s t : State}, key ∉ p.keys → p.Reads s t → t.span? key = s.span? key := by
  induction p with
  | empty =>
    rintro s _ - rfl
    rfl
  | one set =>
    rintro s _ - ⟨c, rest, -, -, rfl⟩
    rfl
  | seq p q ihp ihq =>
    rw [plain, Bool.and_eq_true] at hp
    rintro s t hkey ⟨u, hfirst, hrest⟩
    rw [keys, List.mem_append, not_or] at hkey
    exact (ihq hp.2 hkey.2 hrest).trans (ihp hp.1 hkey.1 hfirst)
  | alt p q ihp ihq =>
    rw [plain, Bool.and_eq_true] at hp
    intro s t hkey h
    rw [keys, List.mem_append, not_or] at hkey
    exact h.elim (ihp hp.1 hkey.1) (ihq hp.2 hkey.2)
  | rounds greedy least most p ih =>
    rw [plain, Bool.and_eq_true] at hp
    intro s t hkey h
    obtain ⟨n, hall⟩ := exists_rounds_of_reads h
    exact Rounds.span?_eq (fun s t hround => ih hp.1 hkey hround) hall
  | capture other p ih =>
    rintro s _ hkey ⟨u, hreads, rfl⟩
    rw [keys, List.mem_cons, not_or] at hkey
    have hother : (other == key) = false := beq_eq_false_iff_ne.mpr (Ne.symm hkey.1)
    -- What is kept here stands in front under another key, and is passed over.
    rw [State.span?, List.find?_cons_of_neg (by simp [hother])]
    exact ih hp hkey.2 hreads
  | anchor a =>
    rintro s _ - ⟨-, rfl⟩
    rfl
  | again => contradiction
  | ahead => contradiction
  | behind => contradiction
  | atomic => contradiction
  | whether => contradiction

end CodeSurvey.Pattern
