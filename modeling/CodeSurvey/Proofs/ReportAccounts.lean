import CodeSurvey.Proofs.Aggregates
import CodeSurvey.Proofs.Assembly
import CodeSurvey.Proofs.Findings
import CodeSurvey.Proofs.FirstElements
import Mathlib.Algebra.BigOperators.Group.Finset.Basic
import Mathlib.Algebra.GroupWithZero.Nat

/-!
# Accounts of reports

A report keeps the first finding of each key, lists it once, and counts and weighs what it keeps.

- `sum_count`: counts of different elements add up.
- `nodup_keys_scan`: a scan never finds two things with one key.
- `Report.ofFindings_accounts`: all counts and the score belong to the same findings.
-/

namespace CodeSurvey

/-! ## Counts -/

/-- How often the elements of a list occur adds up to its length. -/
theorem sum_count [DecidableEq β] {all xs : List β} (hnodup : all.Nodup)
    (hall : ∀ x ∈ xs, x ∈ all) : (all.map fun a => xs.count a).sum = xs.length := by
  -- Elements of `all` that do not occur count for nothing.
  have hsubset : xs.toFinset ⊆ all.toFinset := by
    intro x hx
    rw [List.mem_toFinset] at hx ⊢
    exact hall x hx
  rw [← List.sum_toFinset _ hnodup, ← Finset.sum_subset hsubset,
    List.sum_toFinset_count_eq_length]
  intro a _ ha
  rw [List.mem_toFinset] at ha
  exact List.count_eq_zero.mpr ha

theorem count_map_eq_countP [DecidableEq β] (f : α → β) (xs : List α) (b : β) :
    (xs.map f).count b = xs.countP (f · = b) := by
  rw [List.count, List.countP_map]
  apply List.countP_congr
  intro x _
  simp

theorem length_eraseDups [DecidableEq β] (xs : List β) :
    xs.eraseDups.length = xs.toFinset.card := by
  rw [← List.toFinset_card_of_nodup (nodup_eraseDups xs)]
  congr 1
  ext a
  simp

namespace Text

theorem sum_tally (names : List String) : ((tally names).map (·.2)).sum = names.length := by
  have hperm : (sortedNames names).Perm names.eraseDups := List.mergeSort_perm _ _
  have hnodup : (sortedNames names).Nodup := hperm.nodup_iff.mpr (nodup_eraseDups names)
  rw [tally, List.map_map]
  apply sum_count hnodup
  intro name hname
  rw [hperm.mem_iff, List.mem_eraseDups]
  exact hname

end Text

/-! ## Whole numbers -/

theorem Number.sum_nat (xs : List Nat) :
    Number.sum (xs.map fun n : Nat => .int n) = .int (xs.sum : Nat) := by
  have hfold (total : Nat) : (xs.map fun n : Nat => Number.int n).foldl (· + ·) (.int total) =
      .int (total + xs.sum : Nat) := by
    induction xs generalizing total with
    | nil => rfl
    | cons x rest ih =>
      rw [List.map_cons, List.foldl_cons, List.sum_cons, ← Nat.add_assoc]
      exact ih (total + x)
  rw [Number.sum]
  exact (hfold 0).trans (by rw [Nat.zero_add])

theorem Number.clamp_int (low high n : Int) :
    Number.clamp (.int low) (.int high) (.int n) = .int (max low (min high n)) := by
  have hmost : Number.atMost (.int high) (.int n) = .int (min high n) := by
    by_cases h : n < high
    · simp [Number.atMost, Number.lt, h, Int.min_eq_right (Int.le_of_lt h)]
    · simp [Number.atMost, Number.lt, h, Int.min_eq_left (Int.not_lt.mp h)]
  rw [Number.clamp, hmost]
  by_cases h : low < min high n
  · simp [Number.atLeast, Number.lt, h, Int.max_eq_right (Int.le_of_lt h)]
  · simp [Number.atLeast, Number.lt, h, Int.max_eq_left (Int.not_lt.mp h)]

namespace Security

/-! ## Keys of findings -/

/-- No two rules have both category and title in common. -/
theorem nodup_rules : (rules.map fun r => (r.category, r.title)).Nodup := by
  decide +kernel

/-- Settings take rules away and keep the others in order. -/
theorem sublist_rules_of_ofSettings {settings : Settings} {auth : Auth} {s : Scanner}
    (h : Scanner.ofSettings settings auth = .ok s) : s.rules.Sublist rules := by
  unfold Scanner.ofSettings at h
  simp only [Survey.bind_eq_ok, pure, Except.pure, Except.ok.injEq] at h
  obtain ⟨security, -, rfl⟩ := h
  exact List.filter_sublist

/-- **One key, one finding.** Findings on one line differ in the category or the title of their
rules, and those on different lines in the number of the line. -/
theorem nodup_keys_scan {s : Scanner} (hrules : s.rules.Sublist rules) (path : String)
    (content : List Char) : ((s.scan path content).map Finding.key).Nodup := by
  have happart : s.rules.Pairwise fun r r' => (r.category, r.title) ≠ (r'.category, r'.title) :=
    List.pairwise_map.mp ((hrules.map _).nodup nodup_rules)
  rw [List.Nodup, List.pairwise_map]
  unfold Scanner.scan
  split
  · apply List.pairwise_flatMap.mpr
    constructor
    · -- On one line, findings are told apart by their rules.
      intro index _
      rw [List.pairwise_filterMap]
      apply (happart.filter _).imp
      intro r r' hne f hf g hg hkey
      obtain ⟨-, rfl⟩ := finding?_eq_some_iff.mp hf
      obtain ⟨-, rfl⟩ := finding?_eq_some_iff.mp hg
      simp only [Finding.key, Prod.mk.injEq] at hkey
      exact hne (Prod.ext hkey.1 hkey.2.2.2)
    · -- Findings on different lines are told apart by their numbers.
      apply List.nodup_range.imp
      intro i j hne f hf g hg hkey
      obtain ⟨r, -, hf⟩ := List.mem_filterMap.mp hf
      obtain ⟨r', -, hg⟩ := List.mem_filterMap.mp hg
      obtain ⟨-, rfl⟩ := finding?_eq_some_iff.mp hf
      obtain ⟨-, rfl⟩ := finding?_eq_some_iff.mp hg
      simp only [Finding.key, Prod.mk.injEq, Nat.add_right_cancel_iff] at hkey
      exact hne hkey.2.2.1
  · exact List.Pairwise.nil

/-! ## Scores -/

/-- Weights that are natural numbers. -/
def Weights.ofNat (weights : List (String × Nat)) : Weights :=
  weights.map fun e => (e.1, .int e.2)

/-- What findings weigh together. -/
def penalty (weights : List (String × Nat)) (findings : List Finding) : Nat :=
  (findings.map fun f => (weights.lookup f.rule.severity.name).getD 0).sum

theorem penalty_append (weights : List (String × Nat)) (findings more : List Finding) :
    penalty weights (findings ++ more) = penalty weights findings + penalty weights more := by
  simp [penalty]

theorem weight_ofNat (weights : List (String × Nat)) (s : Severity) :
    (Weights.ofNat weights).weight s = .int ((weights.lookup s.name).getD 0 : Nat) := by
  have hlookup : (Weights.ofNat weights).lookup s.name =
      (weights.lookup s.name).map fun n : Nat => Number.int n := by
    unfold Weights.ofNat
    induction weights with
    | nil => rfl
    | cons e rest ih =>
      rw [List.map_cons, List.lookup_cons, List.lookup_cons]
      cases s.name == e.1
      · exact ih
      · rfl
  rw [Weights.weight, hlookup]
  cases weights.lookup s.name <;> rfl

/-- **The score**: a hundred less the weights, but never below zero. -/
theorem score_ofNat (weights : List (String × Nat)) (findings : List Finding) :
    score (.ofNat weights) (findings.map (·.rule.severity)) =
      .int (max 0 (100 - penalty weights findings : Int)) := by
  have hweights : (findings.map (·.rule.severity)).map (Weights.ofNat weights).weight =
      (findings.map fun f => (weights.lookup f.rule.severity.name).getD 0).map
        fun n : Nat => Number.int n := by
    simp only [List.map_map, Function.comp_def, weight_ofNat]
  rw [score, hweights, Number.sum_nat]
  exact (Number.clamp_int 0 100 (100 - penalty weights findings)).trans (by congr 1; omega)

/-! ## Reports -/

/-- The report of findings under weights that are natural numbers. -/
def reportOf (weights : List (String × Nat)) (findings : List Finding) : Report :=
  let kept := distinctBy Finding.key findings
  ⟨kept, Summary.ofFindings (.ofNat weights) kept⟩

theorem ofFindings_ofNat (weights : List (String × Nat)) (findings : List Finding) :
    Report.ofFindings (.ok (.ofNat weights)) findings = .ok (reportOf weights findings) := by
  rw [Survey.ofFindings_eq]
  cases findings <;> rfl

theorem score_reportOf (weights : List (String × Nat)) (findings : List Finding) :
    (reportOf weights findings).summary.score =
      .int (max 0 (100 - penalty weights (reportOf weights findings).findings : Int)) :=
  score_ofNat weights _

/-- A report accounts for findings: what it lists, counts and weighs are the first findings of all
keys. -/
structure Report.Accounts (weights : List (String × Nat)) (findings : List Finding) (r : Report) :
    Prop where
  kept : r.findings = firstsBy Finding.key findings
  split : r.findings.partition (·.rule.listing = .issue) =
    (r.listed .issue, r.listed .vulnerability)
  total : r.summary.total = (r.listed .issue).length + (r.listed .vulnerability).length
  severities : r.summary.total = (r.summary.bySeverity.map (·.2)).sum
  categories : r.summary.total = (r.summary.byCategory.map (·.2)).sum
  severityCounts : ∀ e ∈ r.summary.bySeverity, e.2 = r.findings.countP (·.rule.severity = e.1)
  categoryCounts : ∀ e ∈ r.summary.byCategory, e.2 = r.findings.countP (·.rule.category = e.1)
  affected : r.summary.affectedFiles = (r.findings.map (·.filePath)).toFinset.card
  score : r.summary.score = .int (max 0 (100 - penalty weights r.findings : Int))

theorem reportOf_accounts (weights : List (String × Nat)) (findings : List Finding) :
    (reportOf weights findings).Accounts weights findings := by
  have hother (l : Listing) : (l == .vulnerability) = !decide (l = .issue) := by
    cases l <;> rfl
  constructor
  case kept => exact distinctBy_eq_firstsBy Finding.key findings
  case split =>
    rw [List.partition_eq_filter_filter]
    simp only [Report.listed, hother]
    rfl
  case total =>
    have hlength := List.length_eq_countP_add_countP (fun f : Finding => f.rule.listing == .issue)
      (l := distinctBy Finding.key findings)
    simp only [Report.listed, hother, ← List.countP_eq_length_filter]
    refine hlength.trans ?_
    simp
    rfl
  case severities =>
    let kept := distinctBy Finding.key findings
    -- Every severity has a count, so the counts add up to all findings.
    show kept.length =
      ((Severity.all.map fun s => (s, (kept.map (·.rule.severity)).count s)).map (·.2)).sum
    rw [List.map_map]
    refine ((sum_count (by decide) fun s _ => Severity.mem_all s).trans ?_).symm
    exact List.length_map _
  case categories => exact ((Text.sum_tally _).trans (List.length_map _)).symm
  case severityCounts =>
    intro e he
    obtain ⟨s, -, rfl⟩ := List.mem_map.mp he
    exact count_map_eq_countP _ _ _
  case categoryCounts =>
    intro e he
    obtain ⟨name, -, rfl⟩ := List.mem_map.mp he
    exact count_map_eq_countP _ _ _
  case affected => exact length_eraseDups _
  case score => exact score_reportOf weights findings

/-- What is added to findings is kept behind what has been kept of them. -/
theorem exists_findings_reportOf_append (weights : List (String × Nat))
    (findings more : List Finding) : ∃ new, (reportOf weights (findings ++ more)).findings =
      (reportOf weights findings).findings ++ new :=
  ⟨_, distinctBy_append_seen findings more⟩

/-- **Accounts of reports.** A report accounts for its findings, whatever they are. Findings whose
keys have come before change nothing; findings that are added never raise the score; and of one scan
everything is kept. -/
theorem Report.ofFindings_accounts (weights : List (String × Nat)) :
    (∀ findings, ∃ r, Report.ofFindings (.ok (.ofNat weights)) findings = .ok r ∧
      r.Accounts weights findings) ∧
    (∀ first repeated rest, (∀ f ∈ repeated, ∃ g ∈ first, g.key = f.key) →
      Report.ofFindings (.ok (.ofNat weights)) (first ++ repeated ++ rest) =
        Report.ofFindings (.ok (.ofNat weights)) (first ++ rest)) ∧
    (∀ findings more, ∃ (r r' : Report) (n n' : Int),
      Report.ofFindings (.ok (.ofNat weights)) findings = .ok r ∧
      Report.ofFindings (.ok (.ofNat weights)) (findings ++ more) = .ok r' ∧
      r.summary.score = .int n ∧ r'.summary.score = .int n' ∧ n' ≤ n) ∧
    (∀ settings auth s path content, Scanner.ofSettings settings auth = .ok s →
      ∃ r, Report.ofFindings (.ok (.ofNat weights)) (s.scan path content) = .ok r ∧
        r.findings = s.scan path content) := by
  refine ⟨?accounts, ?repetitions, ?additions, ?scans⟩
  case accounts =>
    intro findings
    exact ⟨_, ofFindings_ofNat weights findings, reportOf_accounts weights findings⟩
  case repetitions =>
    intro first repeated rest hrepeated
    have hkeys : ∀ f ∈ repeated, f.key ∈ first.map Finding.key := by
      intro f hf
      obtain ⟨g, hg, hkey⟩ := hrepeated f hf
      rw [← hkey]
      exact List.mem_map_of_mem hg
    rw [ofFindings_ofNat, ofFindings_ofNat, reportOf, distinctBy_repeat hkeys]
    rfl
  case additions =>
    intro findings more
    obtain ⟨new, hnew⟩ := exists_findings_reportOf_append weights findings more
    refine ⟨_, _, _, _, ofFindings_ofNat weights findings,
      ofFindings_ofNat weights (findings ++ more), score_reportOf weights findings,
      score_reportOf weights (findings ++ more), ?_⟩
    rw [hnew, penalty_append]
    omega
  case scans =>
    intro settings auth s path content hs
    refine ⟨_, ofFindings_ofNat weights _, ?_⟩
    exact distinctBy_eq_self (nodup_keys_scan (sublist_rules_of_ofSettings hs) path content)

/-- The scanner that the default settings describe. -/
def Scanner.standard : Scanner :=
  ⟨true, some 2000, Security.rules, ⟨.standard, ⟨5, 10⟩⟩⟩

theorem ofSettings_standard : Scanner.ofSettings (merge []) .standard = .ok .standard :=
  rfl

/-- Text that is run as code, and debug output behind it. -/
def loggedEvaluation : String :=
  "eval(text);\nconsole.log(text);\n"

theorem scan_loggedEvaluation : Scanner.standard.scan "src/a.ts" loggedEvaluation.toList =
    [⟨codeFromText, "src/a.ts", 1, "eval(text);"⟩,
      ⟨debugOutput, "src/a.ts", 2, "console.log(text);"⟩] := by
  decide +kernel

/-- The file has two findings. It is reported the same if it is scanned twice. -/
theorem Report.ofFindings_accounts_twice :
    let found := Scanner.standard.scan "src/a.ts" loggedEvaluation.toList
    found.map (fun f => (f.rule.id, f.line)) = [("SEC010", 1), ("SEC022", 2)] ∧
    ∃ r, Report.ofFindings (.ok (.ofNat [("high", 15), ("info", 90)])) found = .ok r ∧
      Report.ofFindings (.ok (.ofNat [("high", 15), ("info", 90)])) (found ++ found ++ []) = .ok r ∧
      r.findings = found ∧ r.summary.score = .int 0 := by
  intro found
  have hpenalty : penalty [("high", 15), ("info", 90)] found = 105 := by
    rw [show found = _ from scan_loggedEvaluation]
    rfl
  obtain ⟨haccounts, hrepetitions, -, hscans⟩ :=
    Report.ofFindings_accounts [("high", 15), ("info", 90)]
  obtain ⟨r, hr, hr'⟩ := haccounts found
  obtain ⟨r₁, hr₁, hall⟩ :=
    hscans (merge []) .standard .standard "src/a.ts" loggedEvaluation.toList ofSettings_standard
  obtain rfl : r = r₁ := Except.ok.inj (hr.symm.trans hr₁)
  refine ⟨?_, r, hr, ?_, hall, ?_⟩
  · rw [show found = _ from scan_loggedEvaluation]
    rfl
  · rw [hrepetitions found found [] fun f hf => ⟨f, hf, rfl⟩, List.append_nil]
    exact hr
  · rw [hr'.score, hall, hpenalty]
    rfl

end Security

end CodeSurvey
