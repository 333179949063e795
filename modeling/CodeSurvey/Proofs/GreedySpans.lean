import CodeSurvey.Proofs.Spans
import CodeSurvey.Proofs.StableSort

/-!
# Spans are selected greedily

Whatever rules report, the spans that are kept are those that a greedy choice makes: in order of
their start, and of their rules where they start at one place, each span is kept unless one that was
kept before it runs over its start.

- `Reported`, `reported`: what rules report, each span with the place of its rule.
- `pairwise_mergeSort_of_ties`: a stable sort leaves elements that tie in order.
- `KeptFrom.drop`, `KeptFrom.keep`, `exists_keptFrom`: one step of the choice, and all of them.
- `select_greedy`, `scan_greedy`: the spans that are kept of what is reported, and of a text.
-/

namespace CodeSurvey

/-- **Stability.** After a stable sort elements are in order, and those that tie are in the order in
which they stood before. -/
theorem pairwise_mergeSort_of_ties {le : α → α → Bool} (h : IsOrder le) {R : α → α → Prop}
    {xs : List α} (hxs : xs.Pairwise R) :
    (xs.mergeSort le).Pairwise fun a b => le a b = true ∧ (le b a = true → R a b) := by
  rw [List.pairwise_iff_forall_sublist]
  intro a b hsorted
  have hab : le a b = true :=
    List.rel_of_pairwise_cons ((List.pairwise_mergeSort h.trans h.total xs).sublist hsorted)
      List.mem_cons_self
  refine ⟨hab, fun hba => ?_⟩
  -- The pair is in one class of ties, and a sort leaves that class as it was.
  have htied : tie le a b = true := by rw [tie, hab, hba]; rfl
  have hclass := hsorted.filter (tie le a)
  rw [filter_tie_mergeSort h, List.filter_cons_of_pos (h.tie_self a),
    List.filter_cons_of_pos htied, List.filter_nil] at hclass
  exact List.pairwise_iff_forall_sublist.mp hxs (hclass.trans List.filter_sublist)

namespace Extract

variable {α : Type}

/-! ## Reports -/

/-- A span that a rule reports, with the place of the rule among the rules. -/
structure Reported (α : Type) where
  rule : Nat
  span : Span α

namespace Reported

/-- Where the span starts. -/
def start (r : Reported α) : Nat :=
  r.span.start

/-- Where the span stops. -/
def stop (r : Reported α) : Nat :=
  r.span.stop

/-- Spans that start earlier precede others; of those that start at one place, the spans of earlier
rules do. -/
def Precedes (r s : Reported α) : Prop :=
  r.start < s.start ∨ r.start = s.start ∧ r.rule < s.rule

theorem Precedes.asymm {r s : Reported α} (h : r.Precedes s) : ¬s.Precedes r := by
  unfold Precedes at *
  omega

theorem Precedes.trans {r s t : Reported α} (h : r.Precedes s) (h' : s.Precedes t) :
    r.Precedes t := by
  unfold Precedes at *
  omega

theorem Precedes.start_le {r s : Reported α} (h : r.Precedes s) : r.start ≤ s.start := by
  unfold Precedes at h
  omega

end Reported

/-- What rules report, rule by rule, where the first of them has a given place. -/
def reportedFrom (place : Nat) : List (List (Span α)) → List (Reported α)
  | [] => []
  | spans :: rest => spans.map (⟨place, ·⟩) ++ reportedFrom (place + 1) rest

/-- What rules report. -/
def reported (found : List (List (Span α))) : List (Reported α) :=
  reportedFrom 0 found

/-- What a rule reports starts at different places, from left to right, and no span stops before it
starts. -/
structure Orderly (spans : List (Span α)) : Prop where
  starts : spans.Pairwise fun a b => a.start < b.start
  start_le_stop : ∀ s ∈ spans, s.start ≤ s.stop

variable {found : List (List (Span α))} {place : Nat}

theorem map_span_reportedFrom (place : Nat) (found : List (List (Span α))) :
    (reportedFrom place found).map (·.span) = found.flatten := by
  induction found generalizing place with
  | nil => rfl
  | cons spans rest ih => simp [reportedFrom, ih, Function.comp_def]

theorem le_rule_of_mem_reportedFrom {r : Reported α} (h : r ∈ reportedFrom place found) :
    place ≤ r.rule := by
  induction found generalizing place with
  | nil => contradiction
  | cons spans rest ih =>
    rcases List.mem_append.mp h with h | h
    · obtain ⟨s, -, rfl⟩ := List.mem_map.mp h
      exact Nat.le_refl place
    · exact Nat.le_of_succ_le (ih h)

/-- Reports come rule by rule, and from left to right for each rule. -/
theorem reportedFrom_pairwise (h : ∀ spans ∈ found, Orderly spans) :
    (reportedFrom place found).Pairwise fun r s =>
      r.rule < s.rule ∨ r.rule = s.rule ∧ r.start < s.start := by
  induction found generalizing place with
  | nil => exact List.Pairwise.nil
  | cons spans rest ih =>
    have hfirst := (h spans List.mem_cons_self).starts
    refine List.pairwise_append.mpr ⟨?_, ih fun spans hspans => h spans (.tail _ hspans), ?_⟩
    · exact List.pairwise_map.mpr (hfirst.imp fun hlt => .inr ⟨rfl, hlt⟩)
    · intro r hr s hs
      obtain ⟨span, -, rfl⟩ := List.mem_map.mp hr
      exact .inl (le_rule_of_mem_reportedFrom hs)

theorem start_le_stop_of_mem_reported (h : ∀ spans ∈ found, Orderly spans) {r : Reported α}
    (hr : r ∈ reported found) : r.start ≤ r.stop := by
  have hspan : r.span ∈ found.flatten := by
    rw [← map_span_reportedFrom 0]
    exact List.mem_map_of_mem hr
  obtain ⟨spans, hspans, hmem⟩ := List.mem_flatten.mp hspan
  exact (h spans hspans).start_le_stop r.span hmem

/-! ## Order -/

/-- Which report may stand before another when they are sorted. -/
def startsFirst (r s : Reported α) : Bool :=
  r.start ≤ s.start

theorem isOrder_startsFirst : IsOrder (startsFirst (α := α)) where
  trans r s t hrs hst := by
    simp only [startsFirst, decide_eq_true_eq] at *
    omega
  total r s := by
    simp only [startsFirst, Bool.or_eq_true, decide_eq_true_eq]
    omega

/-- Sorting spans is sorting reports without looking at their rules. -/
theorem map_span_sorted :
    ((reported found).mergeSort startsFirst).map (·.span) = inOrder found := by
  rw [inOrder, ← map_span_reportedFrom 0]
  exact List.map_mergeSort fun r _ s _ => rfl

/-- Sorted reports are in the order of their starts and their rules. -/
theorem sorted_pairwise (h : ∀ spans ∈ found, Orderly spans) :
    ((reported found).mergeSort startsFirst).Pairwise Reported.Precedes := by
  refine (pairwise_mergeSort_of_ties isOrder_startsFirst (reportedFrom_pairwise h)).imp ?_
  rintro r s ⟨hle, htie⟩
  simp only [startsFirst, decide_eq_true_eq] at hle htie
  rcases Nat.lt_or_eq_of_le hle with hlt | heq
  · exact .inl hlt
  · have hrule := htie (Nat.le_of_eq heq.symm)
    exact .inr ⟨heq, by omega⟩

/-! ## The choice -/

/-- What is kept of reports in order from a place on: those that start there or later and over whose
start none runs that is kept before. -/
structure KeptFrom (free : Nat) (ordered kept : List (Reported α)) : Prop where
  sublist : kept.Sublist ordered
  apart : kept.Pairwise fun r s => r.stop ≤ s.start
  mem_iff : ∀ s ∈ ordered, s ∈ kept ↔
    free ≤ s.start ∧ ∀ r ∈ kept, r.Precedes s → r.stop ≤ s.start

variable {free : Nat} {s : Reported α} {ordered kept : List (Reported α)}

/-- A report that starts before the place is dropped. -/
theorem KeptFrom.drop (hs : s.start < free) (h : KeptFrom free ordered kept) :
    KeptFrom free (s :: ordered) kept where
  sublist := h.sublist.cons s
  apart := h.apart
  mem_iff t ht := by
    rcases List.mem_cons.mp ht with rfl | ht
    · constructor
      · intro hkept
        exact (h.mem_iff t (h.sublist.subset hkept)).mp hkept
      · rintro ⟨hfree, -⟩
        omega
    · exact h.mem_iff t ht

/-- A report that starts at the place or later is kept, and the place moves to its stop. -/
theorem KeptFrom.keep (hs : free ≤ s.start) (hstop : s.start ≤ s.stop)
    (hfirst : ∀ t ∈ ordered, s.Precedes t) (h : KeptFrom s.stop ordered kept) :
    KeptFrom free (s :: ordered) (s :: kept) where
  sublist := h.sublist.cons_cons s
  apart := by
    refine List.pairwise_cons.mpr ⟨fun t ht => ?_, h.apart⟩
    exact ((h.mem_iff t (h.sublist.subset ht)).mp ht).1
  mem_iff t ht := by
    rcases List.mem_cons.mp ht with rfl | ht
    · -- Nothing that is kept later precedes the report.
      refine iff_of_true List.mem_cons_self ⟨hs, fun r hr hprecedes => ?_⟩
      rcases List.mem_cons.mp hr with rfl | hr
      · exact absurd hprecedes hprecedes.asymm
      · exact absurd hprecedes (hfirst r (h.sublist.subset hr)).asymm
    · -- For a later report, to start at the stop or behind it is not to clash with the one kept.
      have hprecedes := hfirst t ht
      have hle := hprecedes.start_le
      constructor
      · intro hkept
        have hkept : t ∈ kept := by
          rcases List.mem_cons.mp hkept with rfl | hkept
          · exact absurd hprecedes hprecedes.asymm
          · exact hkept
        obtain ⟨hbehind, hclear⟩ := (h.mem_iff t ht).mp hkept
        refine ⟨by omega, fun r hr hrt => ?_⟩
        rcases List.mem_cons.mp hr with rfl | hr
        · exact hbehind
        · exact hclear r hr hrt
      · rintro ⟨-, hclear⟩
        refine List.mem_cons_of_mem s ((h.mem_iff t ht).mpr ⟨?_, fun r hr hrt => ?_⟩)
        · exact hclear s List.mem_cons_self hprecedes
        · exact hclear r (List.mem_cons_of_mem s hr) hrt

/-- The spans that are taken are those of the reports that are kept. The induction is on the reports;
the place from which they are kept moves on with each that is. -/
theorem exists_keptFrom (hordered : ordered.Pairwise Reported.Precedes)
    (hstops : ∀ r ∈ ordered, r.start ≤ r.stop) (free : Nat) :
    ∃ kept, kept.map (·.span) = takeDisjoint free (ordered.map (·.span)) ∧
      KeptFrom free ordered kept := by
  induction ordered generalizing free with
  | nil => exact ⟨[], rfl, List.Sublist.slnil, List.Pairwise.nil, fun s hs => by contradiction⟩
  | cons s ordered ih =>
    obtain ⟨hfirst, hordered⟩ := List.pairwise_cons.mp hordered
    have hrest := ih hordered fun r hr => hstops r (List.mem_cons_of_mem s hr)
    rw [List.map_cons, takeDisjoint]
    split
    · rename_i hs
      obtain ⟨kept, hspans, hkept⟩ := hrest free
      exact ⟨kept, hspans, hkept.drop hs⟩
    · rename_i hs
      obtain ⟨kept, hspans, hkept⟩ := hrest s.stop
      refine ⟨s :: kept, congrArg (s.span :: ·) hspans, ?_⟩
      exact hkept.keep (Nat.le_of_not_lt hs) (hstops s List.mem_cons_self) hfirst

/-! ## What is kept -/

/-- The greedy choice among reports. -/
structure Greedy (all kept : List (Reported α)) : Prop where
  /-- What is kept is part of all reports, in the order of their starts and their rules. -/
  ordered : ∃ ordered, ordered.Perm all ∧ ordered.Pairwise Reported.Precedes ∧
    kept.Sublist ordered
  /-- Each kept span stops before the next one starts. -/
  apart : kept.Pairwise fun r s => r.stop ≤ s.start
  /-- A span is dropped exactly if a kept one that precedes it stops behind its start. -/
  dropped_iff : ∀ s ∈ all, s ∉ kept ↔ ∃ r ∈ kept, r.Precedes s ∧ s.start < r.stop

variable {all : List (Reported α)}

theorem Greedy.subset (h : Greedy all kept) {r : Reported α} (hr : r ∈ kept) : r ∈ all := by
  obtain ⟨ordered, hperm, -, hsublist⟩ := h.ordered
  exact hperm.mem_iff.mp (hsublist.subset hr)

/-- The selection is the greedy choice. -/
theorem exists_greedy (h : ∀ spans ∈ found, Orderly spans) :
    ∃ kept, kept.map (·.span) = select found ∧ Greedy (reported found) kept := by
  have hperm := List.mergeSort_perm (reported found) startsFirst
  have hordered := sorted_pairwise h
  have hstops (r : Reported α) (hr : r ∈ (reported found).mergeSort startsFirst) :
      r.start ≤ r.stop :=
    start_le_stop_of_mem_reported h (hperm.mem_iff.mp hr)
  obtain ⟨kept, hspans, hkept⟩ := exists_keptFrom hordered hstops 0
  rw [map_span_sorted] at hspans
  refine ⟨kept, hspans, ⟨_, hperm, hordered, hkept.sublist⟩, hkept.apart, fun s hs => ?_⟩
  rw [hkept.mem_iff s (hperm.mem_iff.mpr hs)]
  simp only [Nat.zero_le, true_and, not_forall, Nat.not_le, exists_prop]

/-- If no span is empty, one is kept at each place at most, that of the first rule which reports one
there. -/
theorem Greedy.first_rule (h : Greedy all kept) (hnonempty : ∀ r ∈ all, r.start < r.stop) :
    kept.Pairwise (fun r s => r.start ≠ s.start) ∧
      ∀ r ∈ kept, ∀ s ∈ all, s.start = r.start → r.rule ≤ s.rule := by
  constructor
  · refine h.apart.imp_of_mem fun {r s} hr _ hle => ?_
    have hlt := hnonempty r (h.subset hr)
    omega
  · intro r hr s hs hstart
    apply Nat.le_of_not_lt
    intro hrule
    have hprecedes : s.Precedes r := .inr ⟨hstart, hrule⟩
    -- What precedes a kept span does not run over its start.
    have hclear (t : Reported α) (ht : t ∈ kept) (htr : t.Precedes r) : ¬r.start < t.stop :=
      fun hover => (h.dropped_iff r (h.subset hr)).mpr ⟨t, ht, htr, hover⟩ hr
    rw [← hstart] at hclear
    by_cases hkept : s ∈ kept
    · exact hclear s hkept hprecedes (hnonempty s hs)
    · obtain ⟨t, ht, hts, hover⟩ := (h.dropped_iff s hs).mp hkept
      exact hclear t ht (hts.trans hprecedes) hover

/-- **Selection.** Whatever rules report, as long as the spans of each start at different places and
none stops before it starts, the spans that are kept are the greedy choice. If no span is empty, each
place has at most one, that of the first rule which reports one there. -/
theorem select_greedy {found : List (List (Span α))} (h : ∀ spans ∈ found, Orderly spans) :
    ∃ kept, kept.map (·.span) = select found ∧ Greedy (reported found) kept ∧
      ((∀ r ∈ reported found, r.start < r.stop) →
        kept.Pairwise (fun r s => r.start ≠ s.start) ∧
          ∀ r ∈ kept, ∀ s ∈ reported found, s.start = r.start → r.rule ≤ s.rule) := by
  obtain ⟨kept, hspans, hgreedy⟩ := exists_greedy h
  exact ⟨kept, hspans, hgreedy, hgreedy.first_rule⟩

/-- Two rules with spans that start at one place, lie inside each other and touch. -/
theorem select_greedy_touching :
    let span (tag : String) (start stop : Nat) : Span String := ⟨tag, [], start, stop, []⟩
    let found := [[span "a" 0 3, span "a" 5 6],
      [span "b" 0 2, span "b" 1 2, span "b" 3 5, span "b" 5 9]]
    (∀ spans ∈ found, Orderly spans) ∧
      (select found).map (fun s => (s.tag, s.start)) = [("a", 0), ("b", 3), ("a", 5)] ∧
      ∃ kept, kept.map (·.span) = select found ∧ Greedy (reported found) kept ∧
        kept.Pairwise (fun r s => r.start ≠ s.start) ∧
        ∀ r ∈ kept, ∀ s ∈ reported found, s.start = r.start → r.rule ≤ s.rule := by
  intro span found
  have horderly : ∀ spans ∈ found, Orderly spans := by
    have hstarts : ∀ spans ∈ found, spans.Pairwise fun a b => a.start < b.start := by decide
    have hstops : ∀ spans ∈ found, ∀ s ∈ spans, s.start ≤ s.stop := by decide
    exact fun spans hspans => ⟨hstarts spans hspans, hstops spans hspans⟩
  have hnonempty : ∀ r ∈ reported found, r.start < r.stop := by decide
  have hselect : (select found).map (fun s => (s.tag, s.start)) =
      [("a", 0), ("b", 3), ("a", 5)] := by
    simp [found, span, select, inOrder, List.mergeSort, List.MergeSort.Internal.splitInTwo,
      takeDisjoint, Span.start, Span.stop]
  obtain ⟨kept, hspans, hgreedy, hfirst⟩ := select_greedy horderly
  exact ⟨horderly, hselect, kept, hspans, hgreedy, hfirst hnonempty⟩

/-! ## Rules that are patterns -/

/-- Matches that are not empty start at different places. -/
theorem orderly_scan {r : Rule α} {text : List Char}
    (h : ∀ m ∈ r.pattern.findAll text, m.start < m.stop) : Orderly (r.scan text) where
  starts := by
    refine List.pairwise_map.mpr (List.Pairwise.imp_of_mem (fun {m n} hm _ hle => ?_)
      (Pattern.findAllFrom_pairwise (Pattern.within_start text) rfl))
    have hlt := h m hm
    exact Nat.lt_of_lt_of_le hlt hle
  start_le_stop s hs := by
    obtain ⟨m, hm, rfl⟩ := List.mem_map.mp hs
    exact Nat.le_of_lt (h m hm)

/-- Rules whose matches are not empty keep, of their matches in a text, the greedy choice. -/
theorem scan_greedy {rules : List (Rule α)} {text : List Char}
    (h : ∀ r ∈ rules, ∀ m ∈ r.pattern.findAll text, m.start < m.stop) :
    ∃ kept, kept.map (·.span) = scan rules text ∧
      Greedy (reported (rules.map (·.scan text))) kept := by
  refine exists_greedy fun spans hspans => ?_
  obtain ⟨r, hr, rfl⟩ := List.mem_map.mp hspans
  exact orderly_scan (h r hr)

end Extract

end CodeSurvey
