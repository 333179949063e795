import CodeSurvey.Proofs.AddedLine
import CodeSurvey.Proofs.Attempts
import CodeSurvey.Proofs.Candidates
import CodeSurvey.Proofs.SharedSections

/-!
# Disabled rules

Settings may disable rules. The findings of these rules are then missing, and that is all: the
others are neither reordered nor replaced, and outside the security report nothing changes.

- `ofFindings_filter`: a report of the findings of some rules.
- `Surveyor.assembled_withScanner`: what depends on the scanner.
- `Surveyor.analyze_onlyRules`: an analysis with some of the rules.
- `analysisOf_disabled`: an analysis with rules disabled, compared to one with all rules.
-/

namespace CodeSurvey

namespace Security

/-! ## Settings -/

/-- The numbers of the rules that settings disable. -/
def disabledBy (settings : Settings) : Except SettingsError (List String) :=
  (settings.sectionNamed "security").map fun security => security.strings "disabled_rules" []

/-- Whether a rule is not among those with the given numbers. -/
def Rule.enabledBeside (ids : List String) (r : Rule) : Bool :=
  !ids.contains r.id

section

variable {settings settings' : Settings}
  (h : Settings.SameBut "security" ["disabled_rules"] settings settings')

include h

/-- Scanners under such settings differ in their rules at most. -/
theorem ofSettings_disabled {ids : List String} (hnone : disabledBy settings = .ok [])
    (hids : disabledBy settings' = .ok ids) (auth : Auth) :
    Scanner.ofSettings settings' auth =
      (Scanner.ofSettings settings auth).map (·.onlyRules (Rule.enabledBeside ids)) := by
  obtain ⟨entries, entries', hsection, hsection', hothers⟩ := h.inside
  rw [disabledBy, hsection] at hnone
  rw [disabledBy, hsection'] at hids
  have hall : entries.strings "disabled_rules" [] = [] := Except.ok.inj hnone
  have hsome : entries'.strings "disabled_rules" [] = ids := Except.ok.inj hids
  rw [Scanner.ofSettings, Scanner.ofSettings, hsection, hsection']
  show Except.ok _ = Except.ok _
  have hevery (r : Rule) : (!([] : List String).contains r.id) = true := rfl
  simp only [hall, hsome, hevery, List.filter_true, Scanner.onlyRules, Settings.bound?,
    Settings.int, hothers "enabled" (by decide), hothers "max_line_length" (by decide),
    hothers "context_radius" (by decide), hothers "wide_context_radius" (by decide)]
  rfl

theorem weightsOf_disabled : weightsOf settings' = weightsOf settings := by
  obtain ⟨entries, entries', hsection, hsection', hothers⟩ := h.inside
  simp only [weightsOf, hsection, hsection', bind, Except.bind, hothers "weights" (by decide)]

end

/-! ## Reports -/

/-- Findings with one key are findings of one rule. -/
theorem rule_eq_of_key_eq {f g : Finding} (hf : f.rule ∈ rules) (hg : g.rule ∈ rules)
    (h : f.key = g.key) : f.rule = g.rule := by
  simp only [Finding.key, Prod.mk.injEq] at h
  -- A key does not number the rule, but no two rules share their category and their title.
  exact List.inj_on_of_nodup_map nodup_rules hf hg (Prod.ext h.1 h.2.2.2)

theorem findings_of_ofFindings {weights : Except SettingsError Weights} {findings : List Finding}
    {r : Report} (h : Report.ofFindings weights findings = .ok r) :
    r.findings = distinctBy Finding.key findings := by
  rw [Survey.ofFindings_eq] at h
  cases hweights : if findings.isEmpty then .ok [] else weights with
  | error e => rw [hweights] at h; contradiction
  | ok w =>
    rw [hweights] at h
    rw [← Except.ok.inj h]

/-- **Some rules in a report.** Of the findings of some rules those are kept that are kept among all
findings. -/
theorem ofFindings_filter {weights : Except SettingsError Weights} {findings : List Finding}
    {r : Report} (hrules : ∀ f ∈ findings, f.rule ∈ rules)
    (h : Report.ofFindings weights findings = .ok r) (keep : Rule → Bool) :
    ∃ r', Report.ofFindings weights (findings.filter fun f => keep f.rule) = .ok r' ∧
      r'.findings = r.findings.filter fun f => keep f.rule := by
  -- Fewer findings need no weights that more of them do not need.
  have hweighed : (findings.filter fun f => keep f.rule) = [] ∨ ∃ w, weights = .ok w := by
    rcases (Survey.ofFindings_ok_iff weights findings).mp ⟨r, h⟩ with rfl | hw
    · exact .inl rfl
    · exact .inr hw
  obtain ⟨r', hr'⟩ := (Survey.ofFindings_ok_iff weights _).mpr hweighed
  have htogether : ∀ f ∈ findings, ∀ g ∈ findings, f.key = g.key → keep f.rule = keep g.rule :=
    fun f hf g hg hkey => congrArg keep (rule_eq_of_key_eq (hrules f hf) (hrules g hg) hkey)
  refine ⟨r', hr', ?_⟩
  rw [findings_of_ofFindings hr', findings_of_ofFindings h, distinctBy_filter htogether]

/-- A report that keeps some of the findings of another does not score less. -/
theorem score_le_of_filter {weights : List (String × Nat)} {findings findings' : List Finding}
    {r r' : Report} (h : Report.ofFindings (.ok (.ofNat weights)) findings = .ok r)
    (h' : Report.ofFindings (.ok (.ofNat weights)) findings' = .ok r') {keep : Finding → Bool}
    (hkept : r'.findings = r.findings.filter keep) :
    ∃ n n' : Int, r.summary.score = .int n ∧ r'.summary.score = .int n' ∧ n ≤ n' := by
  rw [ofFindings_ofNat] at h h'
  obtain rfl := Except.ok.inj h
  obtain rfl := Except.ok.inj h'
  refine ⟨_, _, score_reportOf weights findings, score_reportOf weights findings', ?_⟩
  have hparts := penalty_filter_add weights keep (reportOf weights findings).findings
  rw [hkept]
  omega

end Security

namespace Survey

open Extract (Extractors Faults Kept)
open Security (Rule Scanner)

/-! ## Other scanners -/

/-- The surveyor with another scanner. -/
def Surveyor.withScanner (s : Surveyor) (scanner : Scanner) : Surveyor :=
  { s with scanner }

section

variable (s : Surveyor) (c : Scanner) (x : Extractors) (faults : Faults)

/-- What a scanner contributes are findings. A problem is noted if it breaks down, whatever it would
have found. -/
theorem Surveyor.surveyOf_withScanner (file : SourceFile) :
    (s.withScanner c).surveyOf x faults file =
      { s.surveyOf x faults file with
        findings :=
          if (s.infoOf file).structural && (faults.lookup "security").isNone
          then c.scan file.path file.content.toList else [] } := by
  have hfindings := (s.withScanner c).surveyOf_findings x faults file
  rcases h : (attemptAll (s.contextOf x faults file) Kind.all).run Kept.nothing with ⟨failed, kept⟩
  have h' : (attemptAll ((s.withScanner c).contextOf x faults file) Kind.all).run Kept.nothing =
      (failed, kept) := h
  rw [Surveyor.surveyOf_eq h'] at hfindings ⊢
  rw [Surveyor.surveyOf_eq h]
  simp only [apply_ite Prod.snd, guarded_problems] at hfindings ⊢
  rw [hfindings]
  rfl

theorem Surveyor.functionsOf_withScanner (files : List SourceFile) :
    (s.withScanner c).functionsOf x faults files = s.functionsOf x faults files := by
  simp only [Surveyor.functionsOf, s.surveyOf_withScanner c]
  rfl

theorem Surveyor.qualityOf_withScanner (files : List SourceFile) :
    (s.withScanner c).qualityOf x faults files = s.qualityOf x faults files := by
  simp only [Surveyor.qualityOf, s.functionsOf_withScanner c]
  rfl

/-- Nothing but the security report depends on the scanner. -/
theorem Surveyor.assembled_withScanner (files : List SourceFile) (report report' : Security.Report)
    (quality : Int) :
    (s.withScanner c).assembled x faults files report' quality =
      { s.assembled x faults files report quality with security := report' } := by
  have hdeclare : declareNext ((s.withScanner c).surveyOf x faults) =
      declareNext (s.surveyOf x faults) := by
    funext acc file
    simp only [declareNext, s.surveyOf_withScanner c]
  have hjoined : joined (files.map ((s.withScanner c).surveyOf x faults)) =
      joined (files.map (s.surveyOf x faults)) := by
    funext k
    simp only [joined, List.flatMap_map, s.surveyOf_withScanner c]
  simp only [Surveyor.assembled, declarationsOf_zip_map, hdeclare, hjoined,
    s.functionsOf_withScanner c, List.flatMap_map, s.surveyOf_withScanner c]
  rfl

/-- Some of the rules find what is found by these rules among all of them. -/
theorem Surveyor.findingsOf_onlyRules (keep : Rule → Bool) (files : List SourceFile) :
    (s.withScanner (s.scanner.onlyRules keep)).findingsOf x faults files =
      (s.findingsOf x faults files).filter fun f => keep f.rule := by
  simp only [Surveyor.findingsOf, List.filter_flatMap, Surveyor.surveyOf_findings]
  apply List.flatMap_congr
  intro file _
  show (if (s.infoOf file).structural && _ then (s.scanner.onlyRules keep).scan _ _ else []) = _
  split
  · exact s.scanner.scan_onlyRules keep _ _
  · rfl

end

/-- What is found is found by the rules of the scanner. -/
theorem Surveyor.rule_mem_of_mem_findingsOf {s : Surveyor} {x : Extractors} {faults : Faults}
    {files : List SourceFile} {f : Security.Finding} (h : f ∈ s.findingsOf x faults files) :
    f.rule ∈ s.scanner.rules := by
  obtain ⟨file, -, hf⟩ := List.mem_flatMap.mp h
  rw [s.surveyOf_findings] at hf
  split at hf
  · obtain ⟨-, -, -, -, hrule, -⟩ := Security.exists_line_of_mem_scan hf
    exact hrule
  · contradiction

/-! ## Analyses -/

/-- **Some of the rules.** With some of its rules a surveyor comes to an analysis wherever it does
with all of them. Of the findings those of these rules are kept, in their order; the score is not
lower if the weights are natural numbers; and outside the security report nothing changes. -/
theorem Surveyor.analyze_onlyRules {s : Surveyor} (hrules : s.scanner.rules.Sublist Security.rules)
    {files : List SourceFile} {faults : Faults} {a : Analysis}
    (ha : s.analyze files faults = .ok a) (keep : Rule → Bool) :
    ∃ a', (s.withScanner (s.scanner.onlyRules keep)).analyze files faults = .ok a' ∧
      a'.security.findings = a.security.findings.filter (fun f => keep f.rule) ∧
      (∀ weights, s.weights = .ok (.ofNat weights) →
        ∃ n n' : Int, a.security.summary.score = .int n ∧ a'.security.summary.score = .int n' ∧
          n ≤ n') ∧
      { a' with security := a.security } = a := by
  obtain ⟨hcategories, x, report, quality, hx, hreport, hquality, rfl⟩ :=
    Surveyor.analyze_eq_ok_iff.mp ha
  let s' := s.withScanner (s.scanner.onlyRules keep)
  have hknown : ∀ f ∈ s.findingsOf x faults files, f.rule ∈ Security.rules :=
    fun f hf => hrules.mem (s.rule_mem_of_mem_findingsOf hf)
  obtain ⟨report', hreport', hkept⟩ := Security.ofFindings_filter hknown hreport keep
  rw [← s.findingsOf_onlyRules x faults keep files] at hreport'
  -- The steps before and behind the report do not ask about the scanner.
  have hquality' : s'.qualityOf x faults files = .ok quality :=
    (s.qualityOf_withScanner _ x faults files).trans hquality
  refine ⟨s'.assembled x faults files report' quality, Surveyor.analyze_eq_ok_iff.mpr
    ⟨hcategories, x, report', quality, hx, hreport', hquality', rfl⟩, hkept, ?_, ?_⟩
  · intro weights hweights
    rw [Surveyor.reportOf, hweights] at hreport
    rw [hweights] at hreport'
    exact Security.score_le_of_filter hreport hreport' hkept
  · rw [s.assembled_withScanner (s.scanner.onlyRules keep) x faults files report report' quality]

/-- Surveyors under settings that disable rules have other scanners and differ in nothing else. -/
theorem Surveyor.ofSettings_disabled {user user' : Settings}
    (h : Settings.SameBut "security" ["disabled_rules"] (merge user) (merge user'))
    {ids : List String} (hnone : Security.disabledBy (merge user) = .ok [])
    (hids : Security.disabledBy (merge user') = .ok ids) (workers : Option Int) :
    Surveyor.ofSettings user' workers = (Surveyor.ofSettings user workers).map fun s =>
      s.withScanner (s.scanner.onlyRules (Rule.enabledBeside ids)) := by
  have hshared := h.outside
  have hscanner {β : Type} (auth : Security.Auth) (next : Scanner → Except SettingsError β) :
      (Scanner.ofSettings (merge user') auth >>= next) =
        Scanner.ofSettings (merge user) auth >>= fun scanner =>
          next (scanner.onlyRules (Rule.enabledBeside ids)) := by
    rw [Security.ofSettings_disabled h hnone hids]
    cases Scanner.ofSettings (merge user) auth <;> rfl
  unfold Surveyor.ofSettings
  -- Everything but the scanner is read from what the settings share.
  simp only [hscanner, Security.weightsOf_disabled h, ← hshared.workers, ← hshared.classifier,
    ← hshared.auth, ← hshared.environment, ← hshared.thresholds, ← hshared.scale, ← hshared.shown,
    ← hshared.categories, ← hshared.extractors, ← hshared "cross_reference" (by decide)]
  split
  · simp only [map_step]
    rfl
  · simp only [map_step]
    rfl

/-- **Rules are disabled one by one.** An analysis with rules disabled lists what the analysis with
all rules lists but for the findings of these rules, in the same order. With weights that are
natural numbers its score is not lower, and outside the security report the two analyses are the
same. -/
theorem analysisOf_disabled {user user' : Settings}
    (h : Settings.SameBut "security" ["disabled_rules"] (merge user) (merge user'))
    {ids : List String} (hnone : Security.disabledBy (merge user) = .ok [])
    (hids : Security.disabledBy (merge user') = .ok ids) {workers : Option Int}
    {files : List SourceFile} {faults : Faults} {a : Analysis}
    (ha : analysisOf user workers files faults = .ok a) :
    ∃ a', analysisOf user' workers files faults = .ok a' ∧
      (∀ listing, a'.security.listed listing =
        (a.security.listed listing).filter fun f => f.rule.id ∉ ids) ∧
      (∀ weights, Security.weightsOf (merge user) = .ok (.ofNat weights) →
        ∃ n n' : Int, a.security.summary.score = .int n ∧ a'.security.summary.score = .int n' ∧
          n ≤ n') ∧
      { a' with security := a.security } = a := by
  obtain ⟨s, hs, ha⟩ := bind_eq_ok.mp ha
  have hs' := Surveyor.ofSettings_disabled h hnone hids workers
  rw [hs] at hs'
  obtain ⟨auth, -, hscanner, -⟩ := Surveyor.scanner_of_ofSettings hs
  have hrules := Security.sublist_rules_of_ofSettings hscanner
  obtain ⟨a', ha', hkept, hscore, hframe⟩ :=
    Surveyor.analyze_onlyRules hrules ha (Rule.enabledBeside ids)
  refine ⟨a', bind_eq_ok.mpr ⟨_, hs', ha'⟩, ?_, ?_, hframe⟩
  · -- What is listed is selected from what is kept, before or after.
    intro listing
    rw [Security.Report.listed, Security.Report.listed, hkept, List.filter_filter,
      List.filter_filter]
    apply List.filter_congr
    intro f _
    simp [Rule.enabledBeside, Bool.and_comm]
  · exact fun weights hweights => hscore weights ((s.weights_of_ofSettings hs).trans hweights)

/-- Settings that disable the rule against code from texts. -/
def withoutEvaluation : Settings :=
  [("security", .map [("disabled_rules", .texts ["SEC010"])])]

/-- A file in which a text is run as code and logged, on one line. -/
def evaluatedFile : SourceFile :=
  { path := "src/a.ts", content := "eval(text); console.log(text);\n" }

/-- Without the rule the line is still reported, for its debug output. -/
theorem analysisOf_disabled_evaluation :
    ∃ a a', analysisOf [] none [evaluatedFile] = .ok a ∧
      analysisOf withoutEvaluation none [evaluatedFile] = .ok a' ∧
      (a.security.listed .issue).map (·.rule.id) = ["SEC010", "SEC022"] ∧
      (a'.security.listed .issue).map (·.rule.id) = ["SEC022"] ∧
      (∃ n n' : Int, a.security.summary.score = .int n ∧ a'.security.summary.score = .int n' ∧
        n ≤ n') ∧ { a' with security := a.security } = a := by
  have hsame : Settings.SameBut "security" ["disabled_rules"] (merge [])
      (merge withoutEvaluation) :=
    Settings.sameBut_append [("disabled_rules", .texts ["SEC010"])]
      (show Value.lookup? "security" (merge []) = some (.map defaultSecurity) from rfl)
  have hissues : ((analysisOf [] none [evaluatedFile]).map fun a =>
      (a.security.listed .issue).map (·.rule.id)).toOption = some ["SEC010", "SEC022"] := by
    decide +kernel
  obtain ⟨a, ha, hissues⟩ := exists_eq_ok_of_map hissues
  have hids : Security.disabledBy (merge withoutEvaluation) = .ok ["SEC010"] := rfl
  obtain ⟨a', ha', hlisted, hscore, hframe⟩ := analysisOf_disabled hsame rfl hids ha
  refine ⟨a, a', ha, ha', hissues, ?_, hscore standardWeights rfl, hframe⟩
  have hothers (listed : List Security.Finding) :
      (listed.filter fun f => f.rule.id ∉ ["SEC010"]).map (·.rule.id) =
        (listed.map (·.rule.id)).filter (· ∉ ["SEC010"]) := by
    rw [List.filter_map]
    rfl
  rw [hlisted, hothers, hissues]
  decide

end Survey

end CodeSurvey
