import CodeSurvey.Proofs.Matching
import CodeSurvey.Proofs.PlainReading

/-!
# Where matches stand

Searches report matches by offsets. Each of them is a reading of the pattern at its place in the
text, whichever way the text was searched.

- `Matches`: a pattern matches at a place of a text.
- `matches_of_search?`, `matches_of_mem_findAll`, `matches_of_mem_findAllIn`: what is reported
  are matches.
- `Matches.exists_reads`, `Matches.exists_getElem?`: what is read there.
- `Matches.startsLine`: an anchored pattern matches at the start of a line only.
- `occursIn_of_reads`: a reading at the start of a text is found.
- `findAllFrom_eq_of_fuel`: the fuel of a search does not run out.
- `mem_findAll`, `exists_mem_findAll`: a match that no other runs over is found wherever it stands.
-/

namespace CodeSurvey.Pattern

/-! ## Places -/

/-- The state stands at its offset of this text. -/
structure Within (text : List Char) (s : State) : Prop where
  parts : text = s.before.reverse ++ s.after
  offset : s.before.length = s.offset

variable {text subject : List Char} {s t : State} {p : Pattern} {m : Match}

theorem Within.take (h : Within text s) : text.take s.offset = s.before.reverse := by
  rw [h.parts, ← h.offset, ← List.length_reverse, List.take_left]

theorem Within.drop (h : Within text s) : text.drop s.offset = s.after := by
  rw [h.parts, ← h.offset, ← List.length_reverse, List.drop_left]

theorem Within.offset_le (h : Within text s) : s.offset ≤ text.length := by
  rw [h.parts, ← h.offset, List.length_append, List.length_reverse]
  omega

/-- What is passed stands in the text. -/
theorem Within.passes {read : List Char} (h : Within text s) (hpasses : Passes s read t) :
    Within text t where
  parts := by
    rw [h.parts, hpasses.after, hpasses.before, List.reverse_append, List.reverse_reverse,
      List.append_assoc]
  offset := by
    rw [hpasses.before, hpasses.offset, List.length_append, List.length_reverse, h.offset,
      Nat.add_comm]

theorem within_start (text : List Char) : Within text ⟨[], text, 0, []⟩ :=
  ⟨rfl, rfl⟩

/-- A place in the part of a text before `stop`, or in what stands before the place if that is
more. -/
theorem within_at {start : Nat} (stop : Nat) (hstart : start ≤ text.length) :
    Within (text.take (max start stop)) (State.at text start stop) where
  parts := by
    have hmax : max start stop = start + (stop - start) := by omega
    rw [State.at, List.reverse_reverse, Text.between, hmax, List.take_add]
  offset := by
    rw [State.at, List.length_reverse, List.length_take]
    exact Nat.min_eq_left hstart

/-! ## Matches -/

/-- The pattern matches at a place of the text; `subject` is the text to which the offsets
belong. -/
def Matches (p : Pattern) (subject text : List Char) (m : Match) : Prop :=
  ∃ s nonempty, Within text s ∧ s.kept = [] ∧ p.matchHere? subject s nonempty = some m

/-- A match at a state is the state behind a reading. -/
theorem exists_reads_of_matchHere? {nonempty : Bool}
    (h : p.matchHere? subject s nonempty = some m) :
    ∃ t, p.Reads s t ∧ m = ⟨subject, s.offset, t.offset, t.kept⟩ := by
  obtain ⟨final, hrun, rfl⟩ := Option.map_eq_some_iff.mp h
  obtain ⟨t, hreads, hgoal⟩ := exists_reads_of_run p s _ final hrun
  split at hgoal
  · contradiction
  · exact ⟨t, hreads, by rw [Option.some.inj hgoal]⟩

/-- **Matches are readings**: from the place where they start to the one where they stop. -/
theorem Matches.exists_reads (h : p.Matches subject text m) :
    ∃ s t, Within text s ∧ s.kept = [] ∧ p.Reads s t ∧
      m = ⟨subject, s.offset, t.offset, t.kept⟩ := by
  obtain ⟨s, nonempty, hwithin, hkept, hmatch⟩ := h
  obtain ⟨t, hreads, hm⟩ := exists_reads_of_matchHere? hmatch
  exact ⟨s, t, hwithin, hkept, hreads, hm⟩

/-- A match stands in its text. -/
theorem Matches.bounds (h : p.Matches subject text m) :
    m.start ≤ m.stop ∧ m.stop ≤ text.length := by
  obtain ⟨s, t, hwithin, -, hreads, rfl⟩ := h.exists_reads
  obtain ⟨read, hpasses⟩ := hreads.exists_passes
  refine ⟨?_, (hwithin.passes hpasses).offset_le⟩
  show s.offset ≤ t.offset
  rw [hpasses.offset]
  exact Nat.le_add_right _ _

/-- What is passed stands between the places. -/
theorem Within.between {read : List Char} (h : Within text s) (hpasses : Passes s read t) :
    Text.between text s.offset t.offset = read := by
  rw [Text.between, h.drop, hpasses.after, hpasses.offset, Nat.add_sub_cancel_left, List.take_left]

/-- The text of a match is the text that is read. -/
theorem Within.text_match {read : List Char} (h : Within text s) (hpasses : Passes s read t)
    (kept : List Capture) : (Match.mk text s.offset t.offset kept).text = read :=
  h.between hpasses

/-- Between two places stands what is passed from one to the other. -/
theorem Within.passes_between (h : Within text s) (h' : Within text t)
    (hle : s.offset ≤ t.offset) : Passes s (Text.between text s.offset t.offset) t where
  after := by
    rw [← h.drop, ← h'.drop, Text.between]
    have hdrop : text.drop t.offset = (text.drop s.offset).drop (t.offset - s.offset) := by
      rw [List.drop_drop, Nat.add_sub_cancel' hle]
    rw [hdrop, List.take_append_drop]
  before := by
    rw [← List.reverse_inj, List.reverse_append, List.reverse_reverse, ← h.take, ← h'.take,
      Text.between, ← List.take_add, Nat.add_sub_cancel' hle]
  offset := by
    have hbound := h'.offset_le
    rw [Text.length_between]
    omega

/-- What comes next stands at the place. -/
theorem Within.getElem? {c : Char} {rest : List Char} (h : Within text s)
    (hafter : s.after = c :: rest) : text[s.offset]? = some c := by
  rw [← Nat.add_zero s.offset, ← List.getElem?_drop, h.drop, hafter]
  rfl

/-- A match comes across what every reading comes across. -/
theorem Matches.exists_getElem? {check : CharSet → Bool} {good : Char → Prop}
    (hcheck : ∀ set c, check set = true → set.mem c = true → good c)
    (hsurely : p.surely check = true) (h : p.Matches subject text m) :
    ∃ i c, m.start ≤ i ∧ i < m.stop ∧ text[i]? = some c ∧ good c := by
  obtain ⟨s, t, hwithin, -, hreads, rfl⟩ := h.exists_reads
  obtain ⟨read, hpasses, c, hc, hgood⟩ := meets_of_surely hcheck hsurely hreads
  obtain ⟨i, hi, hget⟩ := List.getElem_of_mem hc
  refine ⟨s.offset + i, c, Nat.le_add_right _ _, ?_, ?_, hgood⟩
  · show s.offset + i < t.offset
    rw [hpasses.offset]
    omega
  · rw [← List.getElem?_drop, hwithin.drop, hpasses.after, List.getElem?_append_left hi,
      List.getElem?_eq_getElem hi, hget]

/-- A match of a pattern that reads something is not empty. -/
theorem Matches.start_lt_stop (hsurely : p.surely (fun _ => true) = true)
    (h : p.Matches subject text m) : m.start < m.stop := by
  obtain ⟨i, -, hlow, hhigh, -⟩ := h.exists_getElem? (fun _ _ _ _ => trivial) hsurely
  exact Nat.lt_of_le_of_lt hlow hhigh

/-- **Anchored matches.** An anchored pattern matches at the start of a line, in front of a Latin
letter. -/
theorem Matches.startsLine (hp : p.Anchored) (h : p.Matches subject text m) :
    startsLine (text.take m.start).reverse = true ∧
      (text.drop m.start).head?.any CharSet.letters.mem = true := by
  -- Elsewhere than at the start of a line the pattern is refused, whatever follows.
  obtain ⟨s, nonempty, hwithin, -, hmatch⟩ := h
  obtain ⟨t, -, hm⟩ := exists_reads_of_matchHere? hmatch
  have hstart : m.start = s.offset := by rw [hm]
  rw [hstart, hwithin.take, hwithin.drop, List.reverse_reverse]
  constructor
  · by_contra haway
    have hnone := hp.away s.before s.after s.offset s.kept
    rw [matchHere?, hnone _ (Bool.eq_false_iff.mpr haway)] at hmatch
    contradiction
  · by_contra hletter
    have hnone := hp.noLetter s.after (Bool.eq_false_iff.mpr hletter) s.before s.offset s.kept
    rw [matchHere?, hnone] at hmatch
    contradiction

/-! ## Searches report matches -/

/-- It matches nowhere behind a text behind which no line starts with a letter. -/
theorem Matches.start_lt_of_quiet (hp : p.Anchored) {taken behind : List Char}
    (h : p.Matches subject (taken ++ behind) m)
    (hquiet : Quiet (Pattern.startsLine taken.reverse) behind) : m.start < taken.length := by
  by_contra hover
  obtain ⟨further, hfurther⟩ : ∃ further, m.start = taken.length + further :=
    ⟨m.start - taken.length, by omega⟩
  obtain ⟨hline, hletter⟩ := h.startsLine hp
  rw [hfurther, List.take_length_add_append, List.reverse_append] at hline
  rw [hfurther, List.drop_length_add_append] at hletter
  rw [← List.take_append_drop further behind] at hquiet
  have hrest := hquiet.drop
  rw [hline] at hrest
  cases hcons : behind.drop further with
  | nil => simp [hcons] at hletter
  | cons c others =>
    rw [hcons] at hrest hletter
    rw [List.head?_cons, Option.any_some, hrest.1 rfl] at hletter
    contradiction

/-- What is found from a place on matches there or further on. The induction is on the text left. -/
theorem matches_of_searchFrom {after : List Char} :
    ∀ {before : List Char} {offset : Nat} {nonempty : Bool},
      Within text ⟨before, after, offset, []⟩ →
      p.searchFrom subject after before offset nonempty = some m →
        p.Matches subject text m ∧ offset ≤ m.start := by
  have hhere {s : State} {nonempty : Bool} (hwithin : Within text s) (hkept : s.kept = [])
      (h : p.matchHere? subject s nonempty = some m) :
      p.Matches subject text m ∧ s.offset ≤ m.start := by
    obtain ⟨t, -, hm⟩ := exists_reads_of_matchHere? h
    exact ⟨⟨s, nonempty, hwithin, hkept, h⟩, Nat.le_of_eq (congrArg Match.start hm).symm⟩
  induction after with
  | nil => exact fun hwithin h => hhere hwithin rfl h
  | cons c rest ih =>
    intro before offset nonempty hwithin h
    rw [searchFrom] at h
    split at h
    · rename_i hmatch
      exact hhere hwithin rfl (hmatch.trans h)
    · -- Nothing matches here, so the search goes on one character further.
      have hnext : Within text ⟨c :: before, rest, offset + 1, []⟩ :=
        hwithin.passes (Passes.pass rfl)
      obtain ⟨hmatches, hle⟩ := ih hnext h
      exact ⟨hmatches, by omega⟩

/-- The place so many characters further on. -/
theorem passes_of_forward? {n : Nat} :
    ∀ {s t : State}, s.forward? n = some t → t.kept = s.kept ∧ ∃ read, Passes s read t := by
  induction n with
  | zero =>
    rintro s t ⟨⟩
    exact ⟨rfl, [], Passes.refl s s.kept⟩
  | succ n ih =>
    intro s t h
    rw [State.forward?] at h
    split at h
    · rename_i c rest hafter
      obtain ⟨hkept, read, hread⟩ := ih h
      exact ⟨hkept, [c] ++ read, (Passes.pass hafter).trans hread⟩
    · contradiction

theorem offset_of_forward? {n : Nat} :
    ∀ {s t : State}, s.forward? n = some t → t.offset = s.offset + n := by
  induction n with
  | zero =>
    rintro s t ⟨⟩
    rfl
  | succ n ih =>
    intro s t h
    rw [State.forward?] at h
    split at h
    · rw [ih h, Nat.add_assoc, Nat.add_comm 1 n]
    · contradiction

/-- What is found one after another matches. The induction is on the number of matches that there
may be. -/
theorem matches_of_mem_findAllFrom {fuel : Nat} :
    ∀ {s : State} {nonempty : Bool}, Within text s → s.kept = [] →
      m ∈ p.findAllFrom subject fuel s nonempty →
        p.Matches subject text m ∧ s.offset ≤ m.start := by
  induction fuel with
  | zero => intro s nonempty _ _ h; contradiction
  | succ fuel ih =>
    intro s nonempty hwithin hkept h
    have hplace : Within text ⟨s.before, s.after, s.offset, []⟩ := ⟨hwithin.parts, hwithin.offset⟩
    rw [findAllFrom] at h
    split at h
    · contradiction
    · rename_i first hfirst
      rcases List.mem_cons.mp h with rfl | h
      · exact matches_of_searchFrom hplace hfirst
      · -- The next search begins where the match stopped.
        split at h
        · rename_i t hforward
          obtain ⟨hkept', read, hpasses⟩ := passes_of_forward? hforward
          obtain ⟨hmatches, hle⟩ := ih (hwithin.passes hpasses) (hkept'.trans hkept) h
          rw [hpasses.offset] at hle
          exact ⟨hmatches, by omega⟩
        · contradiction

/-- No match begins before those in front of it have stopped. -/
theorem findAllFrom_pairwise {fuel : Nat} :
    ∀ {s : State} {nonempty : Bool}, Within text s → s.kept = [] →
      (p.findAllFrom subject fuel s nonempty).Pairwise fun m n => m.stop ≤ n.start := by
  induction fuel with
  | zero => exact fun _ _ => List.Pairwise.nil
  | succ fuel ih =>
    intro s nonempty hwithin hkept
    have hplace : Within text ⟨s.before, s.after, s.offset, []⟩ := ⟨hwithin.parts, hwithin.offset⟩
    rw [findAllFrom]
    split
    · exact List.Pairwise.nil
    · rename_i first hfirst
      obtain ⟨hmatches, hle⟩ := matches_of_searchFrom hplace hfirst
      have hstop := hmatches.bounds.1
      split
      · rename_i t hforward
        obtain ⟨hkept', read, hpasses⟩ := passes_of_forward? hforward
        have hnext := hwithin.passes hpasses
        have hoffset := offset_of_forward? hforward
        refine List.Pairwise.cons (fun m hm => ?_) (ih hnext (hkept'.trans hkept))
        -- The search for the others begins where the first one stopped.
        have hbehind := (matches_of_mem_findAllFrom hnext (hkept'.trans hkept) hm).2
        omega
      · exact List.pairwise_singleton _ _

/-- The matches in a text are in order. -/
theorem findAll_pairwise (p : Pattern) (text : List Char) :
    (p.findAll text).Pairwise fun m n => m.stop ≤ n.start :=
  findAllFrom_pairwise (within_start text) rfl

/-- A match at the start of a text is the first one. -/
theorem exists_findAll_cons (h : p.matchHere? text ⟨[], text, 0, []⟩ false = some m) :
    ∃ others, p.findAll text = m :: others := by
  rw [findAll, findAllFrom, searchFrom_of_matchHere? h]
  exact ⟨_, rfl⟩

theorem matches_of_search? (h : p.search? text = some m) : p.Matches text text m :=
  (matches_of_searchFrom (within_start text) h).1

theorem matches_of_mem_findAll (h : m ∈ p.findAll text) : p.Matches text text m :=
  (matches_of_mem_findAllFrom (within_start text) rfl h).1

/-- What a pattern has to read is not there, so nothing is replaced. -/
theorem replaceAll_of_notMem {c : Char} (hsurely : p.surely (·.within (.char c)) = true)
    (h : c ∉ text) (f : Match → List Char) : p.replaceAll f text = text := by
  have hnone : p.findAll text = [] := by
    rw [List.eq_nil_iff_forall_not_mem]
    intro m hm
    have hcheck (set : CharSet) (d : Char) (hset : set.within (.char c) = true)
        (hd : set.mem d = true) : c = d :=
      eq_of_beq (CharSet.mem_of_within hset hd)
    obtain ⟨i, d, -, -, hget, rfl⟩ := (matches_of_mem_findAll hm).exists_getElem? hcheck hsurely
    exact h (List.mem_of_getElem? hget)
  rw [replaceAll, hnone]
  rfl

/-- From where a match begins up to a place no other one begins if those behind it begin at the
place or later. -/
theorem filter_findAll_eq_singleton (hsurely : p.surely (fun _ => true) = true) {stop : Nat}
    (hm : m ∈ p.findAll text) (hstop : m.start < stop)
    (hbehind : ∀ n ∈ p.findAll text, m.stop ≤ n.start → stop ≤ n.start) :
    (p.findAll text).filter (fun n => m.start ≤ n.start && n.start < stop) = [m] := by
  obtain ⟨earlier, later, hall⟩ := List.append_of_mem hm
  have hapart := findAll_pairwise p text
  rw [hall, List.pairwise_append, List.pairwise_cons] at hapart
  obtain ⟨-, ⟨hlater, -⟩, hearlier⟩ := hapart
  have hnone (found : List Match) (hfound : ∀ n ∈ found, n.start < m.start ∨ stop ≤ n.start) :
      found.filter (fun n => m.start ≤ n.start && n.start < stop) = [] := by
    refine List.filter_eq_nil_iff.mpr fun n hn hinside => ?_
    rw [Bool.and_eq_true, decide_eq_true_iff, decide_eq_true_iff] at hinside
    have houtside := hfound n hn
    omega
  have hbefore : ∀ n ∈ earlier, n.start < m.start ∨ stop ≤ n.start := by
    intro n hn
    have hmoves := (matches_of_mem_findAll (hall ▸ List.mem_append_left _ hn)).start_lt_stop hsurely
    exact .inl (Nat.lt_of_lt_of_le hmoves (hearlier n hn m List.mem_cons_self))
  have hafter : ∀ n ∈ later, n.start < m.start ∨ stop ≤ n.start := by
    intro n hn
    have hmem : n ∈ p.findAll text := hall ▸ List.mem_append_right _ (List.mem_cons_of_mem m hn)
    exact .inr (hbehind n hmem (hlater n hn))
  have hinside : (m.start ≤ m.start && m.start < stop) = true := by simpa using hstop
  rw [hall, List.filter_append, hnone earlier hbefore, List.nil_append, List.filter_cons,
    if_pos hinside, hnone later hafter]

/-- Matches in a part of a text do not look beyond its end. -/
theorem matches_of_mem_findAllIn {start stop : Nat} (hstart : start ≤ text.length)
    (h : m ∈ p.findAllIn text start stop) :
    p.Matches text (text.take (max start stop)) m ∧ start ≤ m.start :=
  matches_of_mem_findAllFrom (within_at stop hstart) rfl h

/-- Matches in a part of a text are in order. -/
theorem findAllIn_pairwise (p : Pattern) {start : Nat} (stop : Nat) (hstart : start ≤ text.length) :
    (p.findAllIn text start stop).Pairwise fun m n => m.stop ≤ n.start :=
  findAllFrom_pairwise (within_at stop hstart) rfl

/-- Of two matches that are apart, the one that starts earlier stops before the other starts. -/
theorem stop_le_of_start_lt {found : List Match} (h : found.Pairwise fun m n => m.stop ≤ n.start)
    {m n : Match} (hm : m ∈ found) (hn : n ∈ found) (hstop : m.start ≤ m.stop)
    (hlt : n.start < m.start) : n.stop ≤ m.start := by
  obtain ⟨i, hi, rfl⟩ := List.getElem_of_mem hm
  obtain ⟨j, hj, rfl⟩ := List.getElem_of_mem hn
  rw [List.pairwise_iff_getElem] at h
  rcases Nat.lt_trichotomy i j with hij | rfl | hij
  · have happart := h i j hi hj hij
    omega
  · omega
  · exact h j i hj hi hij

/-! ## Searches find readings -/

/-- Only one state stands at an offset of a text and keeps nothing. -/
theorem Within.eq (h : Within text s) (h' : Within text t) (hoffset : s.offset = t.offset)
    (hkept : s.kept = t.kept) : s = t := by
  have hbefore : s.before = t.before := by
    rw [← List.reverse_inj, ← h.take, ← h'.take, hoffset]
  have hafter : s.after = t.after := by rw [← h.drop, ← h'.drop, hoffset]
  cases s
  cases t
  simp_all

/-- No match stands where the pattern is refused. -/
theorem Refuses.start_ne (h : p.Refuses t.after) (ht : Within text t) (hkept : t.kept = [])
    (hm : p.Matches subject text m) : m.start ≠ t.offset := by
  intro hstart
  obtain ⟨s, nonempty, hwithin, hnone, hmatch⟩ := hm
  obtain ⟨u, -, rfl⟩ := exists_reads_of_matchHere? hmatch
  obtain rfl := hwithin.eq ht hstart (hnone.trans hkept.symm)
  rw [matchHere?, h s.before s.offset s.kept] at hmatch
  contradiction

/-- Where a pattern can read, it matches. -/
theorem isSome_matchHere? (subject : List Char) (hp : p.plain = true) (h : p.Reads s t) :
    (p.matchHere? subject s false).isSome = true := by
  rw [matchHere?, Option.isSome_map]
  exact finds_reads hp s _ t h rfl

/-- What can be read at the start of a text occurs in it. -/
theorem occursIn_of_reads (hp : p.plain = true) (h : p.Reads ⟨[], text, 0, []⟩ t) :
    p.occursIn text = true := by
  have hhere := isSome_matchHere? text hp h
  rw [occursIn, search?]
  cases text with
  | nil => exact hhere
  | cons c rest =>
    rw [searchFrom]
    split
    · rfl
    · rename_i hnone
      rw [hnone] at hhere
      contradiction

/-- As many characters further on there is a place if there are as many characters. -/
theorem exists_forward? {n : Nat} (h : n ≤ s.after.length) : ∃ t, s.forward? n = some t := by
  have hforward := forward?_append (s.after.take n) (s.after.drop n) s.kept s.before s.offset
  rw [List.take_append_drop, List.length_take, Nat.min_eq_left h] at hforward
  exact ⟨_, hforward⟩

/-- Where a pattern that reads something is found, it is sought again where the match has stopped,
and there less of the text is left. -/
theorem exists_findAllFrom_cons (hsurely : p.surely (fun _ => true) = true)
    (hwithin : Within text s) (h : p.searchFrom subject s.after s.before s.offset false = some m) :
    ∃ t, Within text t ∧ t.kept = s.kept ∧ t.offset = m.stop ∧ t.after.length < s.after.length ∧
      ∀ fuel, p.findAllFrom subject (fuel + 1) s false = m :: p.findAllFrom subject fuel t false := by
  have hplace : Within text ⟨s.before, s.after, s.offset, []⟩ := ⟨hwithin.parts, hwithin.offset⟩
  obtain ⟨hmatches, hfrom⟩ := matches_of_searchFrom hplace h
  have hmoves := hmatches.start_lt_stop hsurely
  have hbound := hmatches.bounds.2
  have hlength : text.length = s.offset + s.after.length := by
    rw [hwithin.parts, List.length_append, List.length_reverse, hwithin.offset]
  obtain ⟨t, hforward⟩ : ∃ t, s.forward? (m.stop - s.offset) = some t :=
    exists_forward? (by omega)
  obtain ⟨hkept, read, hpasses⟩ := passes_of_forward? hforward
  have hoffset := offset_of_forward? hforward
  have hpositive := hpasses.offset
  have hafter := congrArg List.length hpasses.after
  rw [List.length_append] at hafter
  have hnonempty : (m.start == m.stop) = false := beq_eq_false_iff_ne.mpr (Nat.ne_of_lt hmoves)
  refine ⟨t, hwithin.passes hpasses, hkept, by omega, by omega, fun fuel => ?_⟩
  rw [findAllFrom, h]
  simp only [hforward, hnonempty]

/-- **The fuel does not run out.** With more of it than there are characters left, all matches of a
pattern that reads something are found. The induction is on the fuel: each match reads something. -/
theorem findAllFrom_eq_of_fuel (hsurely : p.surely (fun _ => true) = true) {fuel : Nat} :
    ∀ {fuel' : Nat} {s : State}, Within text s → s.after.length < fuel → s.after.length < fuel' →
      p.findAllFrom subject fuel s false = p.findAllFrom subject fuel' s false := by
  induction fuel with
  | zero => exact fun _ hfuel => absurd hfuel (Nat.not_lt_zero _)
  | succ fuel ih =>
    intro fuel' s hwithin hfuel hfuel'
    obtain ⟨more, rfl⟩ := Nat.exists_eq_succ_of_ne_zero (Nat.ne_zero_of_lt hfuel')
    cases hsearch : p.searchFrom subject s.after s.before s.offset false with
    | none => rw [findAllFrom, findAllFrom, hsearch]
    | some m =>
      obtain ⟨t, hthere, -, -, hless, hfound⟩ := exists_findAllFrom_cons hsurely hwithin hsearch
      rw [hfound, hfound]
      exact congrArg (m :: ·) (ih hthere (by omega) (by omega))

section Complete

variable {place : State}

section

variable (hplace : Within text place) (hkept : place.kept = [])
  (hm : p.matchHere? subject place false = some m)
include hplace hkept hm

/-- A search from a place on finds a match no later than there is one. The induction is on the text
left. -/
theorem exists_searchFrom {after : List Char} :
    ∀ {before : List Char} {offset : Nat}, Within text ⟨before, after, offset, []⟩ →
      offset ≤ place.offset →
        ∃ n, p.searchFrom subject after before offset false = some n ∧
          (n.start < place.offset ∨ n = m) := by
  have hhere {s : State} (hwithin : Within text s) (hnone : s.kept = [])
      (hoffset : s.offset = place.offset) : p.matchHere? subject s false = some m := by
    obtain rfl := hwithin.eq hplace hoffset (hnone.trans hkept.symm)
    exact hm
  induction after with
  | nil =>
    intro before offset hwithin hle
    -- At the end of the text there is no other place left.
    have hlength : text.length = offset := by
      rw [hwithin.parts, List.append_nil, List.length_reverse]
      exact hwithin.offset
    have hoffset : offset = place.offset :=
      Nat.le_antisymm hle (hlength ▸ hplace.offset_le)
    exact ⟨m, hhere hwithin rfl hoffset, .inr rfl⟩
  | cons c rest ih =>
    intro before offset hwithin hle
    rcases Nat.lt_or_eq_of_le hle with hbefore | hat
    · rw [searchFrom]
      split
      · rename_i n hn
        obtain ⟨_, -, rfl⟩ := exists_reads_of_matchHere? hn
        exact ⟨_, rfl, .inl hbefore⟩
      · have hnext : Within text ⟨c :: before, rest, offset + 1, []⟩ :=
          hwithin.passes (Passes.pass rfl)
        exact ih hnext hbefore
    · rw [searchFrom, hhere hwithin rfl hat]
      exact ⟨m, rfl, .inr rfl⟩

/-- The matches from a state on include the one at a place that none of them runs over. The
induction is on the number of matches that there may be: each of them reads something. -/
theorem mem_findAllFrom (hsurely : p.surely (fun _ => true) = true) {fuel : Nat} :
    ∀ {s : State}, Within text s → s.kept = [] → s.offset ≤ place.offset →
      s.after.length < fuel →
      (∀ n ∈ p.findAllFrom subject fuel s false, n.start < place.offset →
        n.stop ≤ place.offset) →
      m ∈ p.findAllFrom subject fuel s false := by
  induction fuel with
  | zero => exact fun _ _ _ hfuel => absurd hfuel (Nat.not_lt_zero _)
  | succ fuel ih =>
    intro s hwithin hnone hle hfuel hclear
    have hhere : Within text ⟨s.before, s.after, s.offset, []⟩ := ⟨hwithin.parts, hwithin.offset⟩
    obtain ⟨n, hn, hstart⟩ := exists_searchFrom hplace hkept hm hhere hle
    have hfirst : n ∈ p.findAllFrom subject (fuel + 1) s false := by
      rw [findAllFrom, hn]
      exact List.mem_cons_self
    rcases hstart with hbefore | rfl
    · have hstop := hclear n hfirst hbefore
      -- The match ends before the place, so the search goes on from there.
      obtain ⟨u, hthere, hsame, hoffset, hless, hfound⟩ :=
        exists_findAllFrom_cons hsurely hwithin hn
      rw [hfound] at hclear ⊢
      exact List.mem_cons_of_mem n (ih hthere (hsame.trans hnone) (by omega) (by omega)
        fun k hk => hclear k (List.mem_cons_of_mem n hk))
    · exact hfirst

end

/-- **Every match is found.** Where a pattern that reads something matches, the match is found,
unless one that is found before runs over the place. -/
theorem mem_findAll (hsurely : p.surely (fun _ => true) = true) (hplace : Within text place)
    (hkept : place.kept = []) (hm : p.matchHere? text place false = some m)
    (hclear : ∀ n ∈ p.findAll text, n.start < place.offset → n.stop ≤ place.offset) :
    m ∈ p.findAll text :=
  mem_findAllFrom hplace hkept hm hsurely (within_start text) rfl (Nat.zero_le _)
    (Nat.lt_of_le_of_lt (Nat.le_mul_of_pos_left text.length Nat.two_pos)
      (Nat.lt_add_of_pos_right Nat.two_pos)) hclear

/-- Every match is found in a part of a text as well. -/
theorem mem_findAllIn (hsurely : p.surely (fun _ => true) = true) {start stop : Nat}
    (hstart : start ≤ text.length) (hplace : Within (text.take (max start stop)) place)
    (hkept : place.kept = []) (hm : p.matchHere? text place false = some m)
    (hbehind : start ≤ place.offset)
    (hclear : ∀ n ∈ p.findAllIn text start stop, n.start < place.offset →
      n.stop ≤ place.offset) :
    m ∈ p.findAllIn text start stop :=
  mem_findAllFrom hplace hkept hm hsurely (within_at stop hstart) rfl hbehind (by omega) hclear

/-- **Every place is found.** Where a pattern that reads something can read, one of its matches
begins, unless a match that begins before runs over the place. -/
theorem exists_mem_findAll (hp : p.plain = true) (hsurely : p.surely (fun _ => true) = true)
    (hplace : Within text place) (hkept : place.kept = []) (hreads : p.Reads place t)
    (hclear : ∀ m, p.Matches text text m → m.start < place.offset → m.stop ≤ place.offset) :
    ∃ m ∈ p.findAll text, m.start = place.offset := by
  obtain ⟨m, hm⟩ := Option.isSome_iff_exists.mp (isSome_matchHere? text hp hreads)
  obtain ⟨u, -, hparts⟩ := exists_reads_of_matchHere? hm
  refine ⟨m, mem_findAll hsurely hplace hkept hm fun n hn => ?_, by rw [hparts]⟩
  exact hclear n (matches_of_mem_findAll hn)

end Complete

end CodeSurvey.Pattern
