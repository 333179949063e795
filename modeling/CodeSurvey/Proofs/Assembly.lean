import CodeSurvey.Survey.Analysis

/-!
# How an analysis is put together

An analysis is made of what single files contribute. This module names the contribution of a file
(`Surveyor.surveyOf`) and takes `Surveyor.analyze` apart: first come the steps that can fail because
of the settings, then everything is assembled (`Surveyor.analyze_eq`). What is stated elsewhere about
whole analyses starts from here.
-/

namespace CodeSurvey.Survey

open Extract (Extractors Faults)

/-! ## Analyses under settings -/

/-- The analysis that settings and a number of workers come to. -/
def analysisOf (user : Settings) (workers : Option Int) (files : List SourceFile)
    (faults : Faults := []) : Except SettingsError Analysis := do
  let s ← Surveyor.ofSettings user workers
  s.analyze files faults

/-! ## Contributions of files -/

/-- What is known about a file. Categories that the settings do not hold are not asked for. -/
def Surveyor.infoOf (s : Surveyor) (file : SourceFile) : FileInfo :=
  s.classifier.classify (s.categories.toOption.getD []) file

/-- The files with what is known about them. -/
def Surveyor.classified (s : Surveyor) (files : List SourceFile) : List Metrics.ClassifiedFile :=
  files.map fun file => (file, s.infoOf file)

/-- What one file contributes. -/
def Surveyor.surveyOf (s : Surveyor) (x : Extractors) (faults : Faults) (file : SourceFile) :
    FileSurvey :=
  surveyFile s x faults (file, s.infoOf file)

/-- The functions of all files. -/
def Surveyor.functionsOf (s : Surveyor) (x : Extractors) (faults : Faults)
    (files : List SourceFile) : List Function :=
  let found := files.flatMap fun file => (s.surveyOf x faults file).entities .functions
  if s.crossReference then withCallers found else found

/-- The findings of all files. -/
def Surveyor.findingsOf (s : Surveyor) (x : Extractors) (faults : Faults)
    (files : List SourceFile) : List Security.Finding :=
  files.flatMap fun file => (s.surveyOf x faults file).findings

/-- The problem that a failing search for dependencies leaves. -/
def dependencyProblem (faults : Faults) : List Problem :=
  ((faults.lookup "dependencies").map fun message => ⟨"", "dependencies", message⟩).toList

/-- The names that a file declares take the place of those that an earlier file with its path
declares. -/
def declareNext (survey : SourceFile → FileSurvey) (acc : Environment.Declarations)
    (file : SourceFile) : Environment.Declarations :=
  match (survey file).declared with
  | some names => acc.filter (·.1 != file.path) ++ [(file.path, names)]
  | none => acc

/-- What the environment files declare, file by file. -/
theorem declarationsOf_zip_map (survey : SourceFile → FileSurvey) (files : List SourceFile) :
    declarationsOf (files.zip (files.map survey)) = files.foldl (declareNext survey) [] := by
  have hzip : files.zip (files.map survey) = files.map fun file => (file, survey file) := by
    induction files with
    | nil => rfl
    | cons file rest ih => simp [ih]
  unfold declarationsOf
  rw [hzip, List.foldl_map]
  rfl

/-! ## Steps that can fail -/

/-- Categories are asked for if there are files. -/
def Surveyor.checkCategories (s : Surveyor) (files : List SourceFile) : Except SettingsError Unit :=
  if files.isEmpty then pure () else s.categories.map fun _ => ()

/-- The security report of the files. -/
def Surveyor.reportOf (s : Surveyor) (x : Extractors) (faults : Faults) (files : List SourceFile) :
    Except SettingsError Security.Report :=
  Security.Report.ofFindings s.weights (s.findingsOf x faults files)

/-- The quality score of the files. -/
def Surveyor.qualityOf (s : Surveyor) (x : Extractors) (faults : Faults) (files : List SourceFile) :
    Except SettingsError Int :=
  s.scale.score
    (Metrics.ComplexityReport.of s.thresholds (s.functionsOf x faults files) (s.classified files))
    (Metrics.detect Metrics.standardMarkers files)

/-! ## The whole -/

/-- The analysis of the files, given what can fail. -/
def Surveyor.assembled (s : Surveyor) (x : Extractors) (faults : Faults) (files : List SourceFile)
    (report : Security.Report) (quality : Int) : Analysis :=
  let surveys := files.map (s.surveyOf x faults)
  let entities := joined surveys
  let functions := s.functionsOf x faults files
  { files := files.map s.infoOf
    entities := entities.put .functions functions
    environment := Environment.variablesOf (surveys.flatMap (·.usages))
      (declarationsOf (files.zip surveys))
    configFiles := Manifest.configFiles (files.map s.infoOf)
    dependencies := if (faults.lookup "dependencies").isSome then {} else Manifest.dependencies files
    security := report
    quality
    architecture := Metrics.detect Metrics.standardMarkers files
    statistics := Metrics.Statistics.of s.shown (s.classified files) functions
      ⟨(entities .classes).length, (entities .components).length, (entities .routes).length⟩
    problems := surveys.flatMap (·.problems) ++ dependencyProblem faults }

/-- Kinds other than functions are joined as they are. -/
theorem Surveyor.assembled_entities (s : Surveyor) (x : Extractors) (faults : Faults)
    (files : List SourceFile) (report : Security.Report) (quality : Int) {k : Kind}
    (hk : k ≠ .functions) :
    (s.assembled x faults files report quality).entities k =
      files.flatMap fun file => (s.surveyOf x faults file).entities k := by
  unfold Surveyor.assembled joined
  simp only [Entities.put_of_ne _ _ (Ne.symm hk), List.flatMap_map]

/-- Functions are joined and then told who calls them. -/
theorem Surveyor.assembled_functions (s : Surveyor) (x : Extractors) (faults : Faults)
    (files : List SourceFile) (report : Security.Report) (quality : Int) :
    (s.assembled x faults files report quality).entities .functions =
      s.functionsOf x faults files := by
  exact (joined (files.map (s.surveyOf x faults))).put_self .functions _

theorem Surveyor.classify_eq (s : Surveyor) (files : List SourceFile) :
    s.classify files = (s.checkCategories files).map fun _ => s.classified files := by
  unfold Surveyor.classify Surveyor.checkCategories Surveyor.classified Surveyor.infoOf
  cases files with
  | nil => rfl
  | cons file rest => cases s.categories <;> rfl

/-- **Assembly.** An analysis fails where the settings do not hold what it asks for, in this order;
otherwise it is assembled from what the files contribute. -/
theorem Surveyor.analyze_eq (s : Surveyor) (files : List SourceFile) (faults : Faults) :
    s.analyze files faults = (do
      s.checkCategories files
      let x ← s.extractors
      let report ← s.reportOf x faults files
      let quality ← s.qualityOf x faults files
      pure (s.assembled x faults files report quality)) := by
  have hsurveys (x : Extractors) : (s.classified files).map (surveyFile s x faults) =
      files.map (s.surveyOf x faults) := by
    simp [Surveyor.classified, Surveyor.surveyOf]
  have hinfos : (s.classified files).map (·.2) = files.map s.infoOf := by
    simp [Surveyor.classified]
  unfold Surveyor.analyze
  rw [Surveyor.classify_eq]
  cases s.checkCategories files with
  | error e => rfl
  | ok u =>
    cases s.extractors with
    | error e => rfl
    | ok x =>
      unfold Surveyor.reportOf Surveyor.qualityOf Surveyor.assembled Surveyor.functionsOf
        Surveyor.findingsOf dependencyProblem guarded joined
      simp only [Except.map, bind, Except.bind, hsurveys, hinfos, List.flatMap_map]
      cases faults.lookup "dependencies" <;> rfl

/-- A step that may fail followed by another. -/
theorem bind_eq_ok {first : Except ε α} {next : α → Except ε β} {b : β} :
    (first >>= next) = .ok b ↔ ∃ a, first = .ok a ∧ next a = .ok b := by
  cases first with
  | error e => simp [bind, Except.bind]
  | ok a => simp [bind, Except.bind]

/-- What is made of a step and another behind it is made of the other. -/
theorem map_step (first : Except ε α) (next : α → Except ε β) (see : β → γ) :
    (first >>= next).map see = first >>= fun a => (next a).map see := by
  cases first <;> rfl

/-- A value of which something is seen was reached. -/
theorem exists_eq_ok_of_map {value : Except ε α} {see : α → β} {b : β}
    (h : (value.map see).toOption = some b) : ∃ a, value = .ok a ∧ see a = b := by
  cases value with
  | error e => contradiction
  | ok a => exact ⟨a, rfl, Option.some.inj h⟩

/-- What is behind an analysis that was reached. -/
theorem Surveyor.analyze_eq_ok_iff {s : Surveyor} {files : List SourceFile} {faults : Faults}
    {a : Analysis} :
    s.analyze files faults = .ok a ↔ s.checkCategories files = .ok () ∧ ∃ x report quality,
      s.extractors = .ok x ∧ s.reportOf x faults files = .ok report ∧
      s.qualityOf x faults files = .ok quality ∧
      s.assembled x faults files report quality = a := by
  rw [Surveyor.analyze_eq]
  simp only [bind_eq_ok, pure, Except.pure, Except.ok.injEq]
  constructor
  · rintro ⟨⟨⟩, hcategories, x, hx, report, hreport, quality, hquality, ha⟩
    exact ⟨hcategories, x, report, quality, hx, hreport, hquality, ha⟩
  · rintro ⟨hcategories, x, report, quality, hx, hreport, hquality, ha⟩
    exact ⟨(), hcategories, x, hx, report, hreport, quality, hquality, ha⟩

/-- Two steps fail for the same reason, or both come to values that are related. -/
def Agree (R : α → β → Prop) (first : Except ε α) (second : Except ε β) : Prop :=
  (∀ e, first = .error e → second = .error e) ∧
    ∀ a, first = .ok a → ∃ b, second = .ok b ∧ R a b

theorem Agree.of_eq {step : Except ε α} : Agree Eq step step :=
  ⟨fun _ h => h, fun a h => ⟨a, h, rfl⟩⟩

/-- Steps that agree, followed by steps that agree wherever the first ones lead. -/
theorem Agree.bind {R : α → β → Prop} {Q : γ → δ → Prop} {first : Except ε α}
    {second : Except ε β} {next : α → Except ε γ} {next' : β → Except ε δ}
    (h : Agree R first second) (hnext : ∀ a b, R a b → Agree Q (next a) (next' b)) :
    Agree Q (first >>= next) (second >>= next') := by
  cases first with
  | error e =>
    rw [h.1 e rfl]
    refine ⟨fun e' he => ?_, fun _ hc => by contradiction⟩
    have he : (Except.error e : Except ε γ) = .error e' := he
    rw [← Except.error.inj he]
    rfl
  | ok a =>
    obtain ⟨b, rfl, hab⟩ := h.2 a rfl
    exact hnext a b hab

/-! ## Settings that can be used -/

/-- The settings hold every section that an analysis may ask for. -/
structure Surveyor.Usable (s : Surveyor) : Prop where
  categories : ∃ categories, s.categories = .ok categories
  extractors : ∃ x, s.extractors = .ok x
  weights : ∃ weights, s.weights = .ok weights
  bonuses : ∃ bonuses, s.scale.bonuses = .ok bonuses

/-- The weights of a surveyor are those that its settings name. -/
theorem Surveyor.weights_of_ofSettings {s : Surveyor} {user : Settings} {workers : Option Int}
    (h : Surveyor.ofSettings user workers = .ok s) :
    s.weights = Security.weightsOf (merge user) := by
  unfold Surveyor.ofSettings at h
  split at h
  all_goals
    simp only [bind_eq_ok, pure, Except.pure, Except.ok.injEq] at h
    obtain ⟨_, -, _, -, _, -, _, -, _, -, _, -, _, -, _, -, rfl⟩ := h
    rfl

/-- What the rules and the kinds of a surveyor are taken from. -/
theorem Surveyor.scanner_of_ofSettings {user : Settings} {workers : Option Int} {s : Surveyor}
    (h : Surveyor.ofSettings user workers = .ok s) :
    ∃ auth, Security.Auth.ofSettings (merge user) = .ok auth ∧
      Security.Scanner.ofSettings (merge user) auth = .ok s.scanner ∧
      s.extractors = Extractors.ofSettings (merge user) := by
  -- The number of workers is checked or not; everything else is read in the same order.
  unfold Surveyor.ofSettings at h
  split at h
  · simp only [bind_eq_ok, pure, Except.pure, Except.ok.injEq] at h
    obtain ⟨-, -, _, -, auth, hauth, _, -, scanner, hscanner, _, -, _, -, _, -, rfl⟩ := h
    exact ⟨auth, hauth, hscanner, rfl⟩
  · simp only [bind_eq_ok, pure, Except.pure, Except.ok.injEq] at h
    obtain ⟨_, -, auth, hauth, _, -, scanner, hscanner, _, -, _, -, _, -, rfl⟩ := h
    exact ⟨auth, hauth, hscanner, rfl⟩

/-- The sections that an analysis may ask for, as a check. -/
def Surveyor.usable (s : Surveyor) : Bool :=
  s.categories.isOk && s.extractors.isOk && s.weights.isOk && s.scale.bonuses.isOk

/-- A value that was reached. -/
theorem exists_eq_ok {value : Except ε α} (h : value.isOk = true) : ∃ a, value = .ok a := by
  cases value with
  | error e => contradiction
  | ok a => exact ⟨a, rfl⟩

theorem Surveyor.usable_iff (s : Surveyor) : s.usable = true ↔ s.Usable := by
  have isOk_of {ε α : Type} {value : Except ε α} : (∃ a, value = .ok a) → value.isOk = true := by
    rintro ⟨a, rfl⟩
    rfl
  simp only [Surveyor.usable, Bool.and_eq_true]
  constructor
  · rintro ⟨⟨⟨hcategories, hextractors⟩, hweights⟩, hbonuses⟩
    exact ⟨exists_eq_ok hcategories, exists_eq_ok hextractors, exists_eq_ok hweights,
      exists_eq_ok hbonuses⟩
  · intro h
    exact ⟨⟨⟨isOk_of h.categories, isOk_of h.extractors⟩, isOk_of h.weights⟩, isOk_of h.bonuses⟩

/-- The default settings can be used. -/
theorem standard_usable : ∃ s, Surveyor.ofSettings [] none = .ok s ∧ s.Usable := by
  have h : ((Surveyor.ofSettings [] none).map Surveyor.usable).toOption = some true := by
    decide +kernel
  obtain ⟨s, hs, husable⟩ := exists_eq_ok_of_map h
  exact ⟨s, hs, s.usable_iff.mp husable⟩

/-- A report weighs what it keeps. Weights are asked for only if there is something to weigh. -/
theorem ofFindings_eq (weights : Except SettingsError Security.Weights)
    (findings : List Security.Finding) :
    Security.Report.ofFindings weights findings =
      (if findings.isEmpty then .ok [] else weights).map fun w =>
        let kept := distinctBy Security.Finding.key findings
        ⟨kept, Security.Summary.ofFindings w kept⟩ := by
  have hempty : (distinctBy Security.Finding.key findings).isEmpty = findings.isEmpty := by
    rw [Bool.eq_iff_iff, List.isEmpty_iff, List.isEmpty_iff, distinctBy_eq_nil]
  unfold Security.Report.ofFindings
  simp only [hempty]
  cases findings.isEmpty <;> cases weights <;> rfl

/-- A report fails only if there is something to weigh and nothing to weigh it with. -/
theorem ofFindings_ok_iff (weights : Except SettingsError Security.Weights)
    (findings : List Security.Finding) :
    (∃ report, Security.Report.ofFindings weights findings = .ok report) ↔
      findings = [] ∨ ∃ w, weights = .ok w := by
  rw [ofFindings_eq]
  cases findings <;> cases weights <;> simp [Except.map]

/-- A score fails only if something was found and nothing can be looked up for it. -/
theorem score_ok_iff (q : Metrics.QualityScale) (report : Metrics.ComplexityReport)
    (found : List String) :
    (∃ quality, q.score report found = .ok quality) ↔ found = [] ∨ ∃ b, q.bonuses = .ok b := by
  have hempty : found.eraseDups = [] ↔ found = [] := by
    cases found <;> simp [List.eraseDups_cons]
  unfold Metrics.QualityScale.score
  by_cases h : found = []
  · subst h
    exact ⟨fun _ => .inl rfl, fun _ => ⟨_, rfl⟩⟩
  · have hne : found.eraseDups.isEmpty = false := by simpa [hempty] using h
    cases q.bonuses <;> simp [h, hne, bind, Except.bind, pure, Except.pure]

/-- Categories are missing only if they are asked for. -/
theorem Surveyor.checkCategories_ok_iff (s : Surveyor) (files : List SourceFile) :
    s.checkCategories files = .ok () ↔ files = [] ∨ ∃ categories, s.categories = .ok categories := by
  unfold Surveyor.checkCategories
  cases files with
  | nil => simp [pure, Except.pure]
  | cons file rest => cases s.categories <;> simp [Except.map]

/-- An analysis is reached exactly if the settings hold what it asks for. -/
theorem Surveyor.analyze_ok_iff (s : Surveyor) (files : List SourceFile) (faults : Faults) :
    (∃ a, s.analyze files faults = .ok a) ↔
      (files = [] ∨ ∃ categories, s.categories = .ok categories) ∧ ∃ x, s.extractors = .ok x ∧
      (s.findingsOf x faults files = [] ∨ ∃ weights, s.weights = .ok weights) ∧
      (Metrics.detect Metrics.standardMarkers files = [] ∨
        ∃ bonuses, s.scale.bonuses = .ok bonuses) := by
  simp only [Surveyor.analyze_eq_ok_iff, s.checkCategories_ok_iff, ← ofFindings_ok_iff,
    Surveyor.qualityOf, Surveyor.reportOf]
  constructor
  · rintro ⟨a, hcategories, x, report, quality, hx, hreport, hquality, -⟩
    exact ⟨hcategories, x, hx, ⟨report, hreport⟩, (score_ok_iff ..).mp ⟨quality, hquality⟩⟩
  · rintro ⟨hcategories, x, hx, ⟨report, hreport⟩, hbonuses⟩
    obtain ⟨quality, hquality⟩ := (score_ok_iff ..).mpr hbonuses
    exact ⟨_, hcategories, x, report, quality, hx, hreport, hquality, rfl⟩

/-- Settings that can be used let every analysis be reached. -/
theorem Surveyor.Usable.analyze_ok {s : Surveyor} (h : s.Usable) (files : List SourceFile)
    (faults : Faults) : ∃ a, s.analyze files faults = .ok a := by
  obtain ⟨x, hx⟩ := h.extractors
  exact (s.analyze_ok_iff files faults).mpr
    ⟨.inr h.categories, x, hx, .inr h.weights, .inr h.bonuses⟩

end CodeSurvey.Survey
