import CodeSurvey.Proofs.LineFeeds
import CodeSurvey.Proofs.ReportAccounts
import CodeSurvey.Proofs.Squeezing

/-!
# A line is added to a scanned file

A line that is added at the end of a file is scanned itself, and it stands in the surroundings of
the lines before it: it may bring a marker within their reach. So findings may be gained by it and
lost by it.

- `Scanner.Adds.holds_addLine`: what the added line does to a condition.
- `Scanner.Adds.mem_scan_addLine_iff`: which findings stay.
- `Scanner.Adds.secretsOf_addLine`: a committed secret is found on the added line, and no other one
  is lost.
- `Surveyor.added_secret_accounted`: what a committed secret does to findings and score.
-/

namespace CodeSurvey.Security

open Text

/-! ## Markers -/

/-- The markers that a condition looks for. -/
def Condition.markers : Condition → List String
  | never | fileProtected => []
  | onLine markers | inFile markers | around markers _ | lacksAround markers _ => markers
  | either c d => c.markers ++ d.markers

/-- No marker reaches across lines. -/
def Condition.Inline (c : Condition) : Prop :=
  ∀ m ∈ c.markers, '\n' ∉ lower m.toList

theorem inline_of_mem_rules : ∀ r ∈ rules, r.mitigation.Inline := by
  unfold Condition.Inline
  decide +kernel

theorem hasMarker_feed {markers : List String} (h : ∀ m ∈ markers, '\n' ∉ lower m.toList)
    (text rest : List Char) :
    hasMarker markers (text ++ '\n' :: rest) =
      (hasMarker markers text || hasMarker markers rest) := by
  unfold hasMarker containsAny
  rw [lower_feed]
  induction markers with
  | nil => rfl
  | cons m markers ih =>
    have hm := h m List.mem_cons_self
    have hmarkers := ih fun m' hm' => h m' (List.mem_cons_of_mem _ hm')
    simp only [List.map_cons, List.any_cons, contains_feed hm, hmarkers]
    ac_rfl

theorem hasMarker_addLine {markers : List String} (h : ∀ m ∈ markers, '\n' ∉ lower m.toList)
    {text : List Char} (htext : EndsLine text) (line : List Char) :
    hasMarker markers (addLine text line) = (hasMarker markers text || hasMarker markers line) := by
  rcases htext with rfl | hlast
  · rw [addLine, List.nil_append, hasMarker_feed h, Bool.or_comm]
  · -- The text is parted from the line by the feed that ends it.
    obtain ⟨before, rfl⟩ := List.getLast?_eq_some_iff.mp hlast
    have hparts : addLine (before ++ ['\n']) line = before ++ '\n' :: (line ++ '\n' :: []) := by
      simp [addLine]
    rw [hparts, hasMarker_feed h, hasMarker_feed h, hasMarker_feed h]
    ac_rfl

/-! ## Windows -/

theorem cut_around (xs : List α) (index radius : Nat) :
    cut xs (max 0 (index - radius : Int)) (index + radius + 1) =
      between xs (index - radius) (index + radius + 1) := by
  have hstart : max 0 (index - radius : Int) = (index - radius : Nat) := by omega
  have hstop : (index + radius + 1 : Int) = (index + radius + 1 : Nat) := by omega
  rw [hstart, hstop, cut_ofNat]

theorem cut_around_ne_nil (xs : List α) {index : Nat} (radius : Nat) (h : index < xs.length) :
    cut xs (max 0 (index - radius : Int)) (index + radius + 1) ≠ [] := by
  rw [cut_around]
  apply List.ne_nil_of_length_pos
  rw [length_between]
  omega

/-- An element that is added to a list stands around the places from which it is not too far. -/
theorem cut_around_concat (xs : List α) (x : α) {index : Nat} (radius : Nat)
    (h : index < xs.length) :
    cut (xs ++ [x]) (max 0 (index - radius : Int)) (index + radius + 1) =
      cut xs (max 0 (index - radius : Int)) (index + radius + 1) ++
        if xs.length - index ≤ radius then [x] else [] := by
  rw [cut_around, cut_around, between, between, List.drop_append_of_le_length (by omega),
    List.take_append, List.length_drop]
  congr 1
  split
  · apply List.take_of_length_le
    rw [List.length_singleton]
    omega
  · rw [List.take_eq_nil_iff]
    omega

theorem join_concat {parts : List (List Char)} (h : parts ≠ []) (part : List Char) :
    join ['\n'] (parts ++ [part]) = join ['\n'] parts ++ '\n' :: part := by
  rw [join_append_join h (List.cons_ne_nil part []), join_singleton]
  rfl

/-! ## Added lines -/

/-- A line that is added at the end of a text and is looked at as a whole. -/
structure Scanner.Adds (s : Scanner) (text line : List Char) : Prop where
  ends : EndsLine text
  feed : '\n' ∉ line
  carriage : '\r' ∉ line
  whole : s.seen line = line

/-- Distances are not negative. -/
def Radii.Natural (radii : Radii) : Prop :=
  ∀ reach, 0 ≤ radii.of reach

/-- Whether an added line brings a condition about, so many lines behind the place. -/
def Condition.arises (o : Outlook) (text line : List Char) (distance : Nat) : Condition → Bool
  | never | onLine _ | lacksAround _ _ => false
  | inFile markers => hasMarker markers line
  | around markers reach => distance ≤ o.radii.of reach && hasMarker markers line
  | fileProtected => o.auth.protects (addLine text line)
  | either c d => c.arises o text line distance || d.arises o text line distance

section

variable {s : Scanner} {text line : List Char} (hadds : s.Adds text line) (path : String)

include hadds

theorem Scanner.Adds.lines_fileOf :
    (s.fileOf path (addLine text line)).lines = ((lines text).map s.seen ++ [line]).toArray := by
  rw [fileOf_lines, lines_add_line hadds.ends hadds.feed hadds.carriage, List.map_append,
    List.map_singleton, hadds.whole]

theorem Scanner.Adds.line_eq {index : Nat} (hindex : index < (lines text).length) :
    (Place.mk (s.fileOf path (addLine text line)) index).line =
      (Place.mk (s.fileOf path text) index).line := by
  rw [Place.line, Place.line, hadds.lines_fileOf, fileOf_lines]
  simp [List.getElem?_append_left, hindex]

theorem Scanner.Adds.line_added :
    (Place.mk (s.fileOf path (addLine text line)) (lines text).length).line = line := by
  rw [Place.line, hadds.lines_fileOf]
  simp

/-- A window that reaches the added line holds it at its end. -/
theorem Scanner.Adds.window_eq {index : Nat} (radius : Nat) (hindex : index < (lines text).length) :
    (Place.mk (s.fileOf path (addLine text line)) index).window radius =
      (Place.mk (s.fileOf path text) index).window radius ++
        if (lines text).length - index ≤ radius then '\n' :: line else [] := by
  have hlength : index < ((lines text).map s.seen).length := by rwa [List.length_map]
  simp only [Place.window, hadds.lines_fileOf, fileOf_lines]
  rw [cut_around_concat _ _ radius hlength, List.length_map]
  split
  · exact join_concat (cut_around_ne_nil _ radius hlength) line
  · rw [List.append_nil, List.append_nil]

theorem Scanner.Adds.hasMarker_window {markers : List String}
    (h : ∀ m ∈ markers, '\n' ∉ lower m.toList) {index : Nat} (radius : Nat)
    (hindex : index < (lines text).length) :
    hasMarker markers ((Place.mk (s.fileOf path (addLine text line)) index).window radius) =
      (hasMarker markers ((Place.mk (s.fileOf path text) index).window radius) ||
        ((lines text).length - index ≤ radius && hasMarker markers line)) := by
  rw [hadds.window_eq path radius hindex]
  by_cases hreach : (lines text).length - index ≤ radius
  · rw [if_pos hreach, hasMarker_feed h]
    simp [hreach]
  · rw [if_neg hreach, List.append_nil]
    simp [hreach]

/-- **What an added line does to a condition** that did not hold: it may bring it about. The
induction follows the condition. -/
theorem Scanner.Adds.holds_addLine (hradii : s.outlook.radii.Natural) {c : Condition}
    (hinline : c.Inline) {index : Nat} (hindex : index < (lines text).length)
    (hold : c.holds s.outlook ⟨s.fileOf path text, index⟩ = false) :
    c.holds s.outlook ⟨s.fileOf path (addLine text line), index⟩ =
      c.arises s.outlook text line ((lines text).length - index) := by
  induction c with
  | never => rfl
  | onLine markers =>
    rw [Condition.holds, hadds.line_eq path hindex]
    exact hold
  | inFile markers =>
    have hmarkers : ∀ m ∈ markers, '\n' ∉ lower m.toList := hinline
    have hfile : hasMarker markers text = false := hold
    show hasMarker markers (addLine text line) = hasMarker markers line
    rw [hasMarker_addLine hmarkers hadds.ends, hfile, Bool.false_or]
  | around markers reach =>
    have hmarkers : ∀ m ∈ markers, '\n' ∉ lower m.toList := hinline
    obtain ⟨radius, hradius⟩ := Int.eq_ofNat_of_zero_le (hradii reach)
    rw [Condition.holds, hradius] at hold ⊢
    rw [Condition.arises, hradius, hadds.hasMarker_window path hmarkers radius hindex, hold]
    simp
  | lacksAround markers reach =>
    have hmarkers : ∀ m ∈ markers, '\n' ∉ lower m.toList := hinline
    obtain ⟨radius, hradius⟩ := Int.eq_ofNat_of_zero_le (hradii reach)
    rw [Condition.holds, hradius, Bool.not_eq_false'] at hold
    rw [Condition.holds, hradius, hadds.hasMarker_window path hmarkers radius hindex, hold]
    rfl
  | fileProtected => rfl
  | either c d ihc ihd =>
    rw [Condition.holds, Bool.or_eq_false_iff] at hold
    have hc : c.Inline := fun m hm => hinline m (List.mem_append_left _ hm)
    have hd : d.Inline := fun m hm => hinline m (List.mem_append_right _ hm)
    rw [Condition.holds, Condition.arises, ihc hc hold.1, ihd hd hold.2]

/-! ## Findings -/

theorem Scanner.Adds.reports_addLine (hradii : s.outlook.radii.Natural) {r : Rule}
    (hinline : r.mitigation.Inline) {index : Nat} (hindex : index < (lines text).length)
    (hold : r.reports s.outlook ⟨s.fileOf path text, index⟩ = true) :
    r.reports s.outlook ⟨s.fileOf path (addLine text line), index⟩ =
      !r.mitigation.arises s.outlook text line ((lines text).length - index) := by
  rw [Rule.reports, Bool.and_eq_true, Bool.not_eq_true'] at hold
  rw [Rule.reports, hadds.line_eq path hindex, hold.1, Bool.true_and,
    hadds.holds_addLine path hradii hinline hindex hold.2]

/-- **Which findings stay**: those that the added line does not mitigate. -/
theorem Scanner.Adds.mem_scan_addLine_iff (hradii : s.outlook.radii.Natural)
    (hrules : s.rules.Sublist Security.rules) {f : Finding} (hf : f ∈ s.scan path text) :
    f ∈ s.scan path (addLine text line) ↔
      f.rule.mitigation.arises s.outlook text line ((lines text).length + 1 - f.line) = false := by
  obtain ⟨henabled, index, hindex, r, hr, hcovers, hfinding⟩ := mem_scan_iff.mp hf
  obtain ⟨hreports, rfl⟩ := finding?_eq_some_iff.mp hfinding
  have hinline := inline_of_mem_rules r (hrules.subset hr)
  have hafter := hadds.reports_addLine path hradii hinline hindex hreports
  show _ ↔ r.mitigation.arises s.outlook text line ((lines text).length + 1 - (index + 1)) = false
  rw [Nat.add_sub_add_right]
  constructor
  · intro hmem
    obtain ⟨-, place, -, r', -, -, hfinding'⟩ := mem_scan_iff.mp hmem
    obtain ⟨hreports', hsame⟩ := finding?_eq_some_iff.mp hfinding'
    -- A finding names its rule and its line.
    obtain ⟨rfl, -, hplace, -⟩ := Finding.mk.inj hsame
    obtain rfl : index = place := Nat.succ.inj hplace
    rw [hafter] at hreports'
    simpa using hreports'
  · intro harises
    have hlonger : index < (lines (addLine text line)).length := by
      rw [lines_add_line hadds.ends hadds.feed hadds.carriage, List.length_append]
      omega
    refine mem_scan_iff.mpr ⟨henabled, index, hlonger, r, hr, hcovers, ?_⟩
    rw [finding?_eq_some_iff, hafter, harises, hadds.line_eq path hindex]
    exact ⟨rfl, rfl⟩

end

/-! ## Committed secrets -/

/-- The findings of committed secrets. -/
def secretsOf (findings : List Finding) : List Finding :=
  findings.filter (·.rule.id == "SEC001")

/-- Committed secrets are sought by one rule, everywhere. -/
theorem secretRule_applies (path : List Char) :
    (rules.filter fun r => r.scope.covers path).filter (·.id == "SEC001") = [hardcodedSecret] := by
  have hid : rules.filter (·.id == "SEC001") = [hardcodedSecret] := by
    decide +kernel
  rw [List.filter_comm, hid]
  rfl

/-- On one line there is at most one of them. -/
theorem secretsOf_row (s : Scanner) (p : Place) (path : String) :
    secretsOf ((rules.filter fun r => r.scope.covers path.toList).filterMap (s.finding? p path)) =
      (s.finding? p path hardcodedSecret).toList := by
  have hof (r : Rule) : (s.finding? p path r).filter (·.rule.id == "SEC001") =
      if r.id == "SEC001" then s.finding? p path r else none := by
    unfold Scanner.finding?
    cases r.reports s.outlook p <;> simp [Option.filter]
  rw [secretsOf, List.filter_filterMap]
  simp only [hof]
  rw [← List.filterMap_filter, secretRule_applies]
  cases hfinding : s.finding? p path hardcodedSecret <;> simp [hfinding]

theorem secretsOf_scan {s : Scanner} (henabled : s.enabled = true) (hrules : s.rules = rules)
    (path : String) (text : List Char) :
    secretsOf (s.scan path text) =
      (List.range (lines text).length).flatMap fun index =>
        (s.finding? ⟨s.fileOf path text, index⟩ path hardcodedSecret).toList := by
  have hsize : (s.fileOf path text).lines.size = (lines text).length := by simp [fileOf_lines]
  have hscan : s.scan path text = (List.range (s.fileOf path text).lines.size).flatMap fun index =>
      (rules.filter fun r => r.scope.covers path.toList).filterMap
        (s.finding? ⟨s.fileOf path text, index⟩ path) := by
    rw [Scanner.scan, if_pos henabled, hrules]
    rfl
  rw [hscan, secretsOf, List.filter_flatMap, hsize]
  apply List.flatMap_congr
  intro index _
  exact secretsOf_row s _ path

/-- **A committed secret is found**, and those that were there are found again. -/
theorem Scanner.Adds.secretsOf_addLine {s : Scanner} {text line : List Char}
    (hadds : s.Adds text line) (henabled : s.enabled = true) (hrules : s.rules = Security.rules)
    (path : String) (hsecret : hardcodedSecret.pattern.occursIn line = true)
    (hplain : hasMarker hardcodedSecret.mitigation.markers line = false) :
    ∃ secret : Finding, secret.rule = hardcodedSecret ∧ secret.filePath = path ∧
      secret.line = (lines text).length + 1 ∧
      secretsOf (s.scan path (addLine text line)) = secretsOf (s.scan path text) ++ [secret] := by
  have hreports : hardcodedSecret.reports s.outlook
      ⟨s.fileOf path (addLine text line), (lines text).length⟩ = true := by
    have hmitigation : hardcodedSecret.mitigation.holds s.outlook
        ⟨s.fileOf path (addLine text line), (lines text).length⟩ = false := by
      show hasMarker hardcodedSecret.mitigation.markers (Place.line _) = false
      rw [hadds.line_added path, hplain]
    rw [Rule.reports, hadds.line_added path, hsecret, hmitigation]
    rfl
  obtain ⟨secret, hfinding⟩ : ∃ secret, s.finding?
      ⟨s.fileOf path (addLine text line), (lines text).length⟩ path hardcodedSecret = some secret :=
    ⟨_, if_pos hreports⟩
  have hshape := (finding?_eq_some_iff.mp hfinding).2
  refine ⟨secret, by rw [hshape], by rw [hshape], by rw [hshape], ?_⟩
  rw [secretsOf_scan henabled hrules, secretsOf_scan henabled hrules,
    lines_add_line hadds.ends hadds.feed hadds.carriage, List.length_append, List.length_singleton,
    List.range_succ, List.flatMap_append, List.flatMap_singleton, hfinding]
  congr 1
  apply List.flatMap_congr
  intro index hindex
  -- Whether a line holds a secret is seen on the line alone.
  have hline := hadds.line_eq path (List.mem_range.mp hindex)
  have hsame : hardcodedSecret.reports s.outlook ⟨s.fileOf path (addLine text line), index⟩ =
      hardcodedSecret.reports s.outlook ⟨s.fileOf path text, index⟩ := by
    rw [Rule.reports, Rule.reports, hline]
    show (_ && !hasMarker _ (Place.line _)) = (_ && !hasMarker _ (Place.line _))
    rw [hline]
  rw [Scanner.finding?, Scanner.finding?, hsame, hline]

/-! ## What is lost and gained -/

theorem penalty_perm (weights : List (String × Nat)) {findings others : List Finding}
    (h : findings.Perm others) : penalty weights findings = penalty weights others :=
  (h.map _).sum_eq

theorem penalty_filter_add (weights : List (String × Nat)) (p : Finding → Bool)
    (findings : List Finding) :
    penalty weights (findings.filter p) + penalty weights (findings.filter fun f => !p f) =
      penalty weights findings := by
  rw [← penalty_append]
  exact penalty_perm weights (List.filter_append_perm p findings)

/-- What two lists do not share makes up the difference of what they weigh. -/
theorem penalty_exchange (weights : List (String × Nat)) {before after : List Finding}
    (hbefore : before.Nodup) (hafter : after.Nodup) :
    penalty weights after + penalty weights (before.filter (· ∉ after)) =
      penalty weights before + penalty weights (after.filter (· ∉ before)) := by
  -- What both lists hold is the same on either side, in whatever order.
  have hshared : (before.filter (· ∈ after)).Perm (after.filter (· ∈ before)) := by
    apply (List.perm_ext_iff_of_nodup (hbefore.filter _) (hafter.filter _)).mpr
    intro f
    simp [and_comm]
  have hbeforeParts := penalty_filter_add weights (· ∈ after) before
  have hafterParts := penalty_filter_add weights (· ∈ before) after
  rw [penalty_perm weights hshared] at hbeforeParts
  simp only [decide_not] at *
  omega

/-- What a scan finds is weighed as it is. -/
theorem reportOf_scan {s : Scanner} (hrules : s.rules.Sublist rules) (weights : List (String × Nat))
    (path : String) (text : List Char) :
    (reportOf weights (s.scan path text)).summary.score =
      .int (max 0 (100 - penalty weights (s.scan path text) : Int)) := by
  have hall : (reportOf weights (s.scan path text)).findings = s.scan path text :=
    distinctBy_eq_self (nodup_keys_scan hrules path text)
  rw [score_reportOf, hall]

end CodeSurvey.Security

namespace CodeSurvey.Survey

open Security Text

/-- What findings weigh by default. -/
def standardWeights : List (String × Nat) :=
  [("critical", 25), ("high", 15), ("medium", 5), ("low", 1), ("info", 0)]

theorem standard_security {workers : Option Int} {s : Surveyor}
    (hs : Surveyor.ofSettings [] workers = .ok s) :
    s.scanner = .standard ∧ s.weights = .ok (.ofNat standardWeights) := by
  have hdefault : (Surveyor.ofSettings [] workers).map (fun s => (s.scanner, s.weights)) =
      .ok (.standard, .ok (.ofNat standardWeights)) := by
    cases workers <;> rfl
  rw [hs] at hdefault
  exact Prod.mk.inj (Except.ok.inj hdefault)

/-- **A committed secret is accounted for.** It is found on the line that is added; a finding that
was there stays unless the line mitigates it; and the score does not rise unless what is lost weighs
more than what is gained, the secret included. -/
theorem Surveyor.added_secret_accounted {workers : Option Int} {s : Surveyor}
    (hs : Surveyor.ofSettings [] workers = .ok s) (path : String) {text line : List Char}
    (htext : EndsLine text) (hfeed : '\n' ∉ line) (hreturn : '\r' ∉ line)
    (hlength : line.length ≤ 2000) (hsecret : hardcodedSecret.pattern.occursIn line = true)
    (hplain : hasMarker hardcodedSecret.mitigation.markers line = false) :
    let before := s.scanner.scan path text
    let after := s.scanner.scan path (addLine text line)
    (∃ secret : Finding, secret.rule = hardcodedSecret ∧ secret.filePath = path ∧
      secret.line = (lines text).length + 1 ∧
      secretsOf after = secretsOf before ++ [secret] ∧ secret ∉ before) ∧
    (∀ f ∈ before, f ∈ after ↔ f.rule.mitigation.arises s.scanner.outlook text line
      ((lines text).length + 1 - f.line) = false) ∧
    ∃ (r r' : Report) (n n' : Int),
      Report.ofFindings s.weights before = .ok r ∧ Report.ofFindings s.weights after = .ok r' ∧
      r.summary.score = .int n ∧ r'.summary.score = .int n' ∧
      (penalty standardWeights (before.filter (· ∉ after)) ≤
        penalty standardWeights (after.filter (· ∉ before)) → n' ≤ n) := by
  obtain ⟨hscanner, hweights⟩ := standard_security hs
  rw [hscanner, hweights]
  intro before after
  have hadds : Scanner.standard.Adds text line :=
    { ends := htext
      feed := hfeed
      carriage := hreturn
      whole := (upTo_ofNat line 2000).trans (List.take_of_length_le hlength) }
  have hradii : Scanner.standard.outlook.radii.Natural := by
    intro reach
    cases reach <;> decide
  have hrules : Scanner.standard.rules.Sublist rules := List.Sublist.refl _
  refine ⟨?found, ?stays, ?scores⟩
  case found =>
    obtain ⟨secret, hrule, hpath, hline, hsecrets⟩ :=
      hadds.secretsOf_addLine rfl rfl path hsecret hplain
    refine ⟨secret, hrule, hpath, hline, hsecrets, ?_⟩
    intro hbefore
    have hle := (exists_line_of_mem_scan hbefore).2.1
    omega
  case stays =>
    intro f hf
    exact hadds.mem_scan_addLine_iff path hradii hrules hf
  case scores =>
    refine ⟨_, _, _, _, ofFindings_ofNat _ before, ofFindings_ofNat _ after,
      reportOf_scan hrules standardWeights path text,
      reportOf_scan hrules standardWeights path (addLine text line), ?_⟩
    have hnodup (content : List Char) : (Scanner.standard.scan path content).Nodup :=
      (nodup_keys_scan hrules path content).of_map _
    have hexchange : penalty standardWeights after + penalty _ (before.filter (· ∉ after)) =
        penalty standardWeights before + penalty _ (after.filter (· ∉ before)) :=
      penalty_exchange standardWeights (hnodup text) (hnodup (addLine text line))
    intro hlost
    show max 0 (100 - (penalty _ after : Int)) ≤ max 0 (100 - (penalty _ before : Int))
    omega

/-- Two components with markup that is given as it is. -/
def rawComponents : String :=
  "<p dangerouslySetInnerHTML=\x7ba\x7d/>\n<p dangerouslySetInnerHTML=\x7bb\x7d/>\n"

/-- A secret that names a sanitizer. -/
def sanitizingSecret : String :=
  "const token = \"sanitized\""

/-- The secret mitigates both other findings, which weigh more than it does: the score rises from 70
to 75. -/
theorem added_secret_raises_score :
    ∃ s, Surveyor.ofSettings [] none = .ok s ∧
      EndsLine rawComponents.toList ∧ '\n' ∉ sanitizingSecret.toList ∧
      '\r' ∉ sanitizingSecret.toList ∧ sanitizingSecret.toList.length ≤ 2000 ∧
      hardcodedSecret.pattern.occursIn sanitizingSecret.toList = true ∧
      hasMarker hardcodedSecret.mitigation.markers sanitizingSecret.toList = false ∧
      ∃ r r' : Report,
        Report.ofFindings s.weights (s.scanner.scan "src/a.tsx" rawComponents.toList) = .ok r ∧
        Report.ofFindings s.weights
          (s.scanner.scan "src/a.tsx" (addLine rawComponents.toList sanitizingSecret.toList)) =
            .ok r' ∧
        r.summary.score = .int 70 ∧ r'.summary.score = .int 75 := by
  obtain ⟨s, hs, -⟩ := standard_usable
  obtain ⟨hscanner, hweights⟩ := standard_security hs
  have hbefore : penalty standardWeights
      (Scanner.standard.scan "src/a.tsx" rawComponents.toList) = 30 := by
    decide +kernel
  have hafter : penalty standardWeights (Scanner.standard.scan "src/a.tsx"
      (addLine rawComponents.toList sanitizingSecret.toList)) = 25 := by
    decide +kernel
  refine ⟨s, hs, by decide, by decide, by decide, by decide, by decide +kernel, by decide +kernel,
    _, _, hweights ▸ ofFindings_ofNat _ _, hweights ▸ ofFindings_ofNat _ _, ?_, ?_⟩
  · rw [hscanner, reportOf_scan (List.Sublist.refl _), hbefore]
    rfl
  · rw [hscanner, reportOf_scan (List.Sublist.refl _), hafter]
    rfl

/-- A secret that names nothing else. -/
def bareSecret : String :=
  "const token = 'x7Kq93bLm'"

/-- Behind text that is run as code and debug output the secret is one more finding, and the two
others stay. -/
theorem Surveyor.added_secret_accounted_evaluation :
    ∃ s secret, Surveyor.ofSettings [] none = .ok s ∧ secret.rule = hardcodedSecret ∧
      secret.line = 3 ∧
      let before := s.scanner.scan "src/a.ts" loggedEvaluation.toList
      let after := s.scanner.scan "src/a.ts" (addLine loggedEvaluation.toList bareSecret.toList)
      before.map (·.rule.id) = ["SEC010", "SEC022"] ∧ secretsOf after = [secret] ∧
      (∀ f ∈ before, f ∈ after) ∧
      ∃ (r r' : Report) (n n' : Int),
        Report.ofFindings s.weights before = .ok r ∧ Report.ofFindings s.weights after = .ok r' ∧
        r.summary.score = .int n ∧ r'.summary.score = .int n' ∧ n' ≤ n := by
  obtain ⟨s, hs, -⟩ := standard_usable
  obtain ⟨hscanner, -⟩ := standard_security hs
  obtain ⟨⟨secret, hrule, -, hline, hsecrets, -⟩, hstays, r, r', n, n', hr, hr', hn, hn', hle⟩ :=
    Surveyor.added_secret_accounted hs "src/a.ts"
      (show EndsLine loggedEvaluation.toList by decide)
      (show '\n' ∉ bareSecret.toList by decide) (by decide) (by decide) (by decide +kernel)
      (by decide +kernel)
  have hbefore := scan_loggedEvaluation
  rw [← hscanner] at hbefore
  have hfew : (lines loggedEvaluation.toList).length + 1 = 3 := by decide
  rw [hbefore] at hsecrets hstays hr hle
  -- Neither rule has a mitigation.
  have hkept := fun f hf => (hstays f hf).mpr (by
    rcases List.mem_pair.mp hf with rfl | rfl <;> rfl)
  refine ⟨s, secret, hs, hrule, hline.trans hfew, ?_⟩
  rw [hbefore]
  refine ⟨rfl, hsecrets, hkept, r, r', n, n', hr, hr', hn, hn', hle ?_⟩
  rw [List.filter_eq_nil_iff.mpr]
  · exact Nat.zero_le _
  · intro f hf
    simpa using hkept f hf

end CodeSurvey.Survey
