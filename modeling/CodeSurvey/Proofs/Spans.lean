import CodeSurvey.Extract.Span
import CodeSurvey.Proofs.Matches

/-!
# What rules find

The spans that a set of rules keeps are matches of its patterns, and none begins before those in
front of it have stopped. A place where a rule finds something is kept unless it is run over.
-/

namespace CodeSurvey.Extract

open Pattern

variable {α : Type} {rules : List (Rule α)} {text : List Char}

/-- What is taken is apart. The induction is on the spans; whoever is taken stands behind the place
that is free by then. -/
theorem takeDisjoint_apart {spans : List (Span α)} (h : ∀ s ∈ spans, s.start ≤ s.stop) :
    ∀ free : Nat, (∀ s ∈ takeDisjoint free spans, s ∈ spans ∧ free ≤ s.start) ∧
      (takeDisjoint free spans).Pairwise fun a b => a.stop ≤ b.start := by
  induction spans with
  | nil => exact fun free => ⟨fun s hs => absurd hs List.not_mem_nil, List.Pairwise.nil⟩
  | cons s spans ih =>
    intro free
    have hrest := ih fun t ht => h t (List.mem_cons_of_mem s ht)
    rw [takeDisjoint]
    split
    · -- A span that begins in the one before is dropped.
      obtain ⟨hmem, hapart⟩ := hrest free
      exact ⟨fun t ht => ⟨List.mem_cons_of_mem s (hmem t ht).1, (hmem t ht).2⟩, hapart⟩
    · rename_i hfree
      obtain ⟨hmem, hapart⟩ := hrest s.stop
      have hs := h s List.mem_cons_self
      refine ⟨fun t ht => ?_, List.pairwise_cons.mpr ⟨fun t ht => (hmem t ht).2, hapart⟩⟩
      rcases List.mem_cons.mp ht with rfl | ht
      · exact ⟨List.mem_cons_self, Nat.le_of_not_lt hfree⟩
      · obtain ⟨hspan, hle⟩ := hmem t ht
        exact ⟨List.mem_cons_of_mem s hspan, by omega⟩

/-- What any of the rules finds matches its pattern. -/
theorem exists_rule_of_mem_inOrder {s : Span α} (h : s ∈ inOrder (rules.map (·.scan text))) :
    ∃ r ∈ rules, s.tag = r.tag ∧ r.pattern.Matches text text s.found := by
  obtain ⟨found, hfound, hs⟩ := List.mem_flatten.mp (List.mem_mergeSort.mp h)
  obtain ⟨r, hr, rfl⟩ := List.mem_map.mp hfound
  obtain ⟨m, hm, rfl⟩ := List.mem_map.mp hs
  exact ⟨r, hr, rfl, matches_of_mem_findAll hm⟩

theorem start_le_stop {s : Span α} (h : s ∈ inOrder (rules.map (·.scan text))) :
    s.start ≤ s.stop := by
  obtain ⟨r, -, -, hmatches⟩ := exists_rule_of_mem_inOrder h
  exact hmatches.bounds.1

/-- **Spans are matches.** Each span that is kept is a match of the rule whose tag it bears. -/
theorem exists_rule_of_mem_scan {s : Span α} (h : s ∈ scan rules text) :
    ∃ r ∈ rules, s.tag = r.tag ∧ r.pattern.Matches text text s.found :=
  exists_rule_of_mem_inOrder (((takeDisjoint_apart (fun _ => start_le_stop) 0).1 s h).1)

/-- **Spans are apart.** No span that is kept begins before those in front of it have stopped. -/
theorem scan_pairwise (rules : List (Rule α)) (text : List Char) :
    (scan rules text).Pairwise fun a b => a.stop ≤ b.start :=
  (takeDisjoint_apart (fun _ => start_le_stop) 0).2

/-- Where a span begins over which none runs that begins before, one is taken. The induction is on
the spans; the place stays free as long as none is taken there. -/
theorem exists_mem_takeDisjoint {place : Nat} {spans : List (Span α)}
    (hsorted : spans.Pairwise fun a b => a.start ≤ b.start)
    (hclear : ∀ s ∈ spans, s.start < place → s.stop ≤ place)
    (hthere : ∃ s ∈ spans, s.start = place) :
    ∀ free : Nat, free ≤ place → ∃ s ∈ takeDisjoint free spans, s.start = place := by
  induction spans with
  | nil =>
    obtain ⟨s, hs, -⟩ := hthere
    contradiction
  | cons t spans ih =>
    intro free hfree
    obtain ⟨hfirst, hsorted⟩ := List.pairwise_cons.mp hsorted
    have hclear' := fun s hs => hclear s (List.mem_cons_of_mem t hs)
    obtain ⟨s, hs, hplace⟩ := hthere
    by_cases hat : t.start = place
    · rw [takeDisjoint, if_neg (by omega)]
      exact ⟨t, List.mem_cons_self, hat⟩
    · -- Another span comes first, and it ends before the place.
      have hrest : s ∈ spans := by
        rcases List.mem_cons.mp hs with rfl | hs
        · contradiction
        · exact hs
      have hle := hfirst s hrest
      have hstop := hclear t List.mem_cons_self (by omega)
      rw [takeDisjoint]
      split
      · exact ih hsorted hclear' ⟨s, hrest, hplace⟩ free hfree
      · obtain ⟨found, hfound, hstart⟩ := ih hsorted hclear' ⟨s, hrest, hplace⟩ t.stop hstop
        exact ⟨found, List.mem_cons_of_mem t hfound, hstart⟩

/-- Spans in order begin one behind the other. -/
theorem pairwise_inOrder (found : List (List (Span α))) :
    (inOrder found).Pairwise fun a b => a.start ≤ b.start := by
  have h : (inOrder found).Pairwise fun a b => decide (a.start ≤ b.start) = true := by
    apply List.pairwise_mergeSort
    · simpa using fun a b c : Span α => Nat.le_trans
    · simpa using fun a b : Span α => Nat.le_total _ _
  exact h.imp of_decide_eq_true

/-- **Every place is kept.** Where a rule finds something, a span is kept, unless what a rule finds
before runs over the place. -/
theorem exists_mem_scan {place : Nat}
    (hclear : ∀ r ∈ rules, ∀ m ∈ r.pattern.findAll text, m.start < place → m.stop ≤ place)
    (hthere : ∃ r ∈ rules, ∃ m ∈ r.pattern.findAll text, m.start = place) :
    ∃ s ∈ scan rules text, s.start = place := by
  obtain ⟨r, hr, m, hm, hstart⟩ := hthere
  refine exists_mem_takeDisjoint (pairwise_inOrder _) ?_ ⟨⟨r.tag, m⟩, ?_, hstart⟩ 0 (Nat.zero_le _)
  · intro s hs
    obtain ⟨found, hfound, hs⟩ := List.mem_flatten.mp (List.mem_mergeSort.mp hs)
    obtain ⟨r, hr, rfl⟩ := List.mem_map.mp hfound
    obtain ⟨m, hm, rfl⟩ := List.mem_map.mp hs
    exact hclear r hr m hm
  · exact List.mem_mergeSort.mpr (List.mem_flatten.mpr
      ⟨_, List.mem_map_of_mem hr, List.mem_map_of_mem hm⟩)

/-- What a rule finds in front of everything else is the first span. -/
theorem exists_scan_cons {r : Rule α} {m : Match} (hr : r ∈ rules) (hm : m ∈ r.pattern.findAll text)
    (hfirst : ∀ r' ∈ rules, ∀ m' ∈ r'.pattern.findAll text, m'.start ≤ m.start → r' = r ∧ m' = m) :
    ∃ others, scan rules text = ⟨r.tag, m⟩ :: others := by
  have hmem : (⟨r.tag, m⟩ : Span α) ∈ inOrder (rules.map (·.scan text)) :=
    List.mem_mergeSort.mpr
      (List.mem_flatten.mpr ⟨_, List.mem_map_of_mem hr, List.mem_map_of_mem hm⟩)
  have hsorted := pairwise_inOrder (rules.map (·.scan text))
  rw [scan, select]
  cases hspans : inOrder (rules.map (·.scan text)) with
  | nil =>
    rw [hspans] at hmem
    contradiction
  | cons s spans =>
    rw [hspans] at hmem hsorted
    -- The first one begins no later than this one, so it is this one.
    have hle : s.start ≤ m.start := by
      rcases List.mem_cons.mp hmem with rfl | hmem
      · exact Nat.le_refl _
      · exact (List.pairwise_cons.mp hsorted).1 _ hmem
    have hs : s ∈ inOrder (rules.map (·.scan text)) := hspans ▸ List.mem_cons_self
    obtain ⟨found, hfound, hs⟩ := List.mem_flatten.mp (List.mem_mergeSort.mp hs)
    obtain ⟨r', hr', rfl⟩ := List.mem_map.mp hfound
    obtain ⟨m', hm', rfl⟩ := List.mem_map.mp hs
    obtain ⟨rfl, rfl⟩ := hfirst r' hr' m' hm' hle
    exact ⟨takeDisjoint m'.stop spans, by rw [takeDisjoint, if_neg (Nat.not_lt_zero _)]; rfl⟩

/-- Spans that are found in order are not sorted again. -/
theorem scan_eq_of_sorted (h : (rules.map (·.scan text)).flatten.Pairwise fun a b =>
    decide (a.start ≤ b.start) = true) :
    scan rules text = takeDisjoint 0 (rules.map (·.scan text)).flatten := by
  rw [scan, select, inOrder, List.mergeSort_of_pairwise h]

/-- Spans that stand one behind the other are all kept. -/
theorem takeDisjoint_eq_self {spans : List (Span α)}
    (hapart : spans.Pairwise fun a b => a.stop ≤ b.start) :
    ∀ {free : Nat}, (∀ s ∈ spans, free ≤ s.start) → takeDisjoint free spans = spans := by
  induction spans with
  | nil => intro free _; rfl
  | cons s spans ih =>
    intro free hfree
    obtain ⟨hnext, hspans⟩ := List.pairwise_cons.mp hapart
    have hs := hfree s List.mem_cons_self
    rw [takeDisjoint, if_neg (by omega), ih hspans hnext]

/-- Where the other rules find nothing, everything that the first one finds is taken. -/
theorem scan_cons_of_nothing (r : Rule α) {others : List (Rule α)} {text : List Char}
    (hnothing : ∀ r' ∈ others, r'.pattern.findAll text = []) :
    scan (r :: others) text = r.scan text := by
  have hapart : (r.scan text).Pairwise fun a b => a.stop ≤ b.start := by
    rw [Rule.scan, List.pairwise_map]
    exact findAll_pairwise r.pattern text
  have hsorted : (r.scan text).Pairwise fun a b => decide (a.start ≤ b.start) = true := by
    refine hapart.imp_of_mem fun {a b} ha _ hab => ?_
    obtain ⟨m, hm, rfl⟩ := List.mem_map.mp ha
    have hbounds := (matches_of_mem_findAll hm).bounds.1
    exact decide_eq_true (Nat.le_trans hbounds hab)
  have hall : ((r :: others).map (·.scan text)).flatten = r.scan text := by
    have hrest : (others.map (·.scan text)).flatten = [] := by
      refine List.flatten_eq_nil_iff.mpr (List.forall_mem_map.mpr fun r' hr' => ?_)
      rw [Rule.scan, hnothing r' hr', List.map_nil]
    rw [List.map_cons, List.flatten_cons, hrest, List.append_nil]
  rw [scan_eq_of_sorted (hall ▸ hsorted), hall,
    takeDisjoint_eq_self hapart fun _ _ => Nat.zero_le _]

/-- What one rule finds is taken. -/
theorem scan_singleton (r : Rule α) (text : List Char) : scan [r] text = r.scan text :=
  scan_cons_of_nothing r fun _ h => absurd h List.not_mem_nil

end CodeSurvey.Extract
