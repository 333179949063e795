import CodeSurvey.Proofs.Aggregates
import CodeSurvey.Proofs.Concatenation
import CodeSurvey.Proofs.DeclarationsKept
import CodeSurvey.Proofs.EntityPaths
import CodeSurvey.Report.Template
import Mathlib.Data.List.Basic

/-!
# The order of files

Files whose paths differ can be given in any order: what an analysis says about all of them together
stays the same, and what it says about each file moves with the file.

- `Surveyor.entities_eq_flatMap`: entities come in blocks, one for each file.
- `Surveyor.keptFindings_eq_flatMap`: so do findings, once repetitions are left out.
- `analysisOf_perm`: an analysis in another order of the files.
-/

namespace CodeSurvey.Survey

open Extract (Context Extractors Faults)
open Security (Finding)

/-! ## Entities in blocks -/

/-- The functions of one file, told who calls them among those of all files. -/
def Surveyor.functionsIn (s : Surveyor) (x : Extractors) (faults : Faults)
    (files : List SourceFile) (file : SourceFile) : List Function :=
  let found := (s.surveyOf x faults file).entities .functions
  let all := files.flatMap fun f => (s.surveyOf x faults f).entities .functions
  if s.crossReference then found.map fun f => { f with calledBy := callersOf all f } else found

/-- What one file contributes to the entities of an analysis. -/
def Surveyor.entitiesIn (s : Surveyor) (x : Extractors) (faults : Faults)
    (files : List SourceFile) (file : SourceFile) : Entities :=
  (s.surveyOf x faults file).entities.put .functions (s.functionsIn x faults files file)

variable {s : Surveyor} {x : Extractors} {faults : Faults} {files files' : List SourceFile}

theorem Surveyor.functionsOf_eq_flatMap :
    s.functionsOf x faults files = files.flatMap (s.functionsIn x faults files) := by
  unfold Surveyor.functionsOf Surveyor.functionsIn withCallers
  cases s.crossReference with
  | true => simp only [if_true, List.map_flatMap]
  | false => rfl

/-- **Blocks.** The entities of an analysis are those of its files, one after the other. -/
theorem Surveyor.entities_eq_flatMap (report : Security.Report) (quality : Int) (k : Kind) :
    (s.assembled x faults files report quality).entities k =
      files.flatMap fun file => s.entitiesIn x faults files file k := by
  by_cases hk : k = .functions
  · subst hk
    rw [s.assembled_functions, Surveyor.functionsOf_eq_flatMap]
    simp only [Surveyor.entitiesIn, Entities.put_self]
  · rw [s.assembled_entities _ _ _ _ _ hk]
    simp only [Surveyor.entitiesIn, Entities.put_of_ne _ _ (Ne.symm hk)]

/-- What is found in a file names the file. -/
theorem Surveyor.filePath_of_mem_surveyOf {file : SourceFile} {k : Kind} {e : k.Entity}
    (h : e ∈ (s.surveyOf x faults file).entities k) : k.filePath e = file.path := by
  rw [(s.surveyOf_spec x faults file).1] at h
  exact Context.filePath_of_mem_left h

/-- The functions of a file name the file. -/
theorem Surveyor.filePath_of_mem_functionsIn {file : SourceFile} {f : Function}
    (h : f ∈ s.functionsIn x faults files file) : f.filePath = file.path := by
  have hfound {g : Function} (hg : g ∈ (s.surveyOf x faults file).entities .functions) :
      g.filePath = file.path :=
    Surveyor.filePath_of_mem_surveyOf hg
  rw [Surveyor.functionsIn] at h
  split at h
  · -- Callers are added to functions, nothing else changes.
    obtain ⟨g, hg, rfl⟩ := List.mem_map.mp h
    have hpath := hfound hg
    exact hpath
  · exact hfound h

/-- What a file contributes names the file. -/
theorem Surveyor.filePath_of_mem_entitiesIn {file : SourceFile} {k : Kind} {e : k.Entity}
    (h : e ∈ s.entitiesIn x faults files file k) : k.filePath e = file.path := by
  by_cases hk : k = .functions
  · subst hk
    rw [Surveyor.entitiesIn, Entities.put_self] at h
    exact Surveyor.filePath_of_mem_functionsIn h
  · rw [Surveyor.entitiesIn, Entities.put_of_ne _ _ (Ne.symm hk)] at h
    exact Surveyor.filePath_of_mem_surveyOf h

/-- Who calls a function depends only on what functions there are. -/
theorem callersOf_eq_of_perm {functions functions' : List Function}
    (h : functions.Perm functions') : callersOf functions = callersOf functions' := by
  funext callee
  exact Text.sortedNames_congr fun n => ((h.filter _).map _).mem_iff

/-- The functions of a file and their callers do not depend on the order of the files. -/
theorem Surveyor.functionsIn_eq_of_perm (s : Surveyor) (x : Extractors) (faults : Faults)
    (hperm : files.Perm files') :
    s.functionsIn x faults files = s.functionsIn x faults files' := by
  have hcallers := callersOf_eq_of_perm
    (hperm.flatMap_right fun f => (s.surveyOf x faults f).entities .functions)
  funext file
  simp only [Surveyor.functionsIn, hcallers]

/-- All functions, with their callers, come in the order of the files. -/
theorem Surveyor.functionsOf_perm (s : Surveyor) (x : Extractors) (faults : Faults)
    (hperm : files.Perm files') :
    (s.functionsOf x faults files).Perm (s.functionsOf x faults files') := by
  rw [Surveyor.functionsOf_eq_flatMap, Surveyor.functionsOf_eq_flatMap,
    s.functionsIn_eq_of_perm x faults hperm]
  exact hperm.flatMap_right _

/-- Functions that tie as the most complex ones keep their order, since they are in one file. -/
theorem Surveyor.functionsOf_ties (hperm : files.Perm files')
    (hpaths : files.Pairwise fun f g => f.path ≠ g.path) (f : Function) :
    (s.functionsOf x faults files).filter (tie Metrics.moreComplexFirst f) =
      (s.functionsOf x faults files').filter (tie Metrics.moreComplexFirst f) := by
  rw [Surveyor.functionsOf_eq_flatMap, Surveyor.functionsOf_eq_flatMap,
    s.functionsIn_eq_of_perm x faults hperm]
  refine filter_flatMap_eq_of_perm Function.filePath hperm hpaths (fun file g hg => ?_)
    fun g g' hg hg' => ?_
  · exact Surveyor.filePath_of_mem_functionsIn hg
  · rw [← Metrics.filePath_eq_of_tie hg, ← Metrics.filePath_eq_of_tie hg']

/-! ## Findings in blocks -/

/-- The findings of a file, each once. -/
def Surveyor.keptIn (s : Surveyor) (x : Extractors) (faults : Faults) (file : SourceFile) :
    List Finding :=
  distinctBy Finding.key (s.surveyOf x faults file).findings

theorem Surveyor.filePath_of_mem_keptIn {file : SourceFile} {f : Finding}
    (h : f ∈ s.keptIn x faults file) : f.filePath = file.path :=
  Surveyor.filePath_of_mem_findings ((distinctBy_sublist _ _).subset h)

/-- Findings of different files are never repetitions of each other. -/
theorem Surveyor.keptFindings_eq_flatMap (s : Surveyor) (x : Extractors) (faults : Faults)
    (hpaths : files.Pairwise fun f g => f.path ≠ g.path) :
    distinctBy Finding.key (s.findingsOf x faults files) = files.flatMap (s.keptIn x faults) :=
  distinctBy_flatMap (hpaths.imp fun {_ _} h => s.findings_keys_ne x faults h)

/-! ## Declarations in blocks -/

/-- Where paths differ, no file takes the place of another. -/
theorem mem_declarations_of_apart (survey : SourceFile → FileSurvey)
    (hpaths : files.Pairwise fun f g => f.path ≠ g.path) {path : String} {names : List String} :
    (path, names) ∈ files.foldl (declareNext survey) [] ↔
      ∃ file ∈ files, file.path = path ∧ (survey file).declared = some names := by
  have hthere {file : SourceFile} (h : file ∈ declaringAt survey path files) :
      file ∈ files ∧ file.path = path := by
    obtain ⟨hfile, hdeclares⟩ := List.mem_filter.mp h
    rw [Bool.and_eq_true, beq_iff_eq] at hdeclares
    exact ⟨hfile, hdeclares.1⟩
  rw [mem_foldl_declareNext]
  constructor
  · rintro ⟨last, hlast, hnames⟩
    obtain ⟨hfile, hpath⟩ := hthere (List.mem_of_getLast? hlast)
    exact ⟨last, hfile, hpath, hnames⟩
  · rintro ⟨file, hfile, hpath, hnames⟩
    have hmem : file ∈ declaringAt survey path files :=
      List.mem_filter.mpr ⟨hfile, by simp [hpath, hnames]⟩
    have hlast := List.getLast?_eq_some_getLast (List.ne_nil_of_mem hmem)
    generalize (declaringAt survey path files).getLast _ = last at hlast
    -- The last file with the path is the only one.
    obtain ⟨hlastFile, hlastPath⟩ := hthere (List.mem_of_getLast? hlast)
    obtain rfl := eq_of_key_eq hpaths hlastFile hfile (hlastPath.trans hpath.symm)
    exact ⟨last, hlast, hnames⟩

/-- What environment files declare does not depend on the order of the files. -/
theorem declares_iff_of_perm (survey : SourceFile → FileSurvey) (hperm : files.Perm files')
    (hpaths : files.Pairwise fun f g => f.path ≠ g.path) (path name : String) :
    Environment.Declares (files'.foldl (declareNext survey) []) path name ↔
      Environment.Declares (files.foldl (declareNext survey) []) path name := by
  have hpaths' := hperm.pairwise hpaths Ne.symm
  have hmem (d : String × List String) : d ∈ files'.foldl (declareNext survey) [] ↔
      d ∈ files.foldl (declareNext survey) [] := by
    rw [mem_declarations_of_apart survey hpaths', mem_declarations_of_apart survey hpaths]
    simp only [hperm.mem_iff]
  simp only [Environment.Declares, hmem]

/-! ## Reports -/

/-- A security report shows nothing but its summary and its findings in order. -/
theorem securityReport_congr {r r' : Security.Report} (hsummary : r.summary = r'.summary)
    (horder : Report.inReportOrder r = Report.inReportOrder r') :
    Report.securityReport r = Report.securityReport r' := by
  unfold Report.securityReport
  rw [hsummary, horder]

/-- Findings that tie come from one file, so they are reported in the order in which they are found
there. -/
theorem inReportOrder_eq_of_perm {r r' : Security.Report} (hperm : files.Perm files')
    (hpaths : files.Pairwise fun f g => f.path ≠ g.path)
    (hr : r.findings = files.flatMap (s.keptIn x faults))
    (hr' : r'.findings = files'.flatMap (s.keptIn x faults)) :
    Report.inReportOrder r = Report.inReportOrder r' := by
  refine mergeSort_eq_of_ties Report.isOrder_worseFirst fun f => ?_
  have hlisted (listing : Security.Listing) :
      (r.listed listing).filter (tie Report.worseFirst f) =
        (r'.listed listing).filter (tie Report.worseFirst f) := by
    rw [Security.Report.listed, Security.Report.listed, List.filter_filter, List.filter_filter,
      hr, hr']
    refine filter_flatMap_eq_of_perm Finding.filePath hperm hpaths
      (fun file g hg => Surveyor.filePath_of_mem_keptIn hg) fun g g' hg hg' => ?_
    rw [Bool.and_eq_true] at hg hg'
    rw [← Report.filePath_eq_of_tie_worseFirst hg.1, ← Report.filePath_eq_of_tie_worseFirst hg'.1]
  rw [List.filter_append, List.filter_append, hlisted, hlisted]

/-! ## Whole analyses -/

/-- The entities of one kind that an analysis found in a file. -/
def Analysis.block (a : Analysis) (file : SourceFile) (k : Kind) : List k.Entity :=
  (a.entities k).filter fun e => k.filePath e == file.path

/-- Two analyses of the same files in different orders say the same about all files together, and
list the same blocks of entities, each in the order of the files. -/
structure SameUpToOrder (files files' : List SourceFile) (a b : Analysis) : Prop where
  statistics : b.statistics = a.statistics
  summary : b.security.summary = a.security.summary
  report : Report.Template.render b .security = Report.Template.render a .security
  quality : b.quality = a.quality
  architecture : b.architecture = a.architecture
  environment : b.environment = a.environment
  dependencies : b.dependencies = a.dependencies
  entities : ∀ k, a.entities k = files.flatMap fun file => a.block file k
  /-- The blocks hold the functions with their callers. -/
  entities' : ∀ k, b.entities k = files'.flatMap fun file => a.block file k
  infos : ∃ info : SourceFile → FileInfo, (∀ file, (info file).path = file.path) ∧
    a.files = files.map info ∧ b.files = files'.map info
  configFiles : a.configFiles = files.filterMap (fun file => Manifest.configFile? file.path) ∧
    b.configFiles = files'.filterMap fun file => Manifest.configFile? file.path

/-- Two reports say the same, though their findings may be listed in another order. -/
def SameReport (r r' : Security.Report) : Prop :=
  r'.summary = r.summary ∧ Report.inReportOrder r' = Report.inReportOrder r

/-- Reports on the same files say the same. -/
theorem Surveyor.reportOf_perm (s : Surveyor) (x : Extractors) (faults : Faults)
    (hperm : files.Perm files') (hpaths : files.Pairwise fun f g => f.path ≠ g.path)
    (hweights : ∀ weights, s.weights = .ok weights → weights.Whole) :
    Agree SameReport (s.reportOf x faults files) (s.reportOf x faults files') := by
  have hfindings : (s.findingsOf x faults files).Perm (s.findingsOf x faults files') :=
    hperm.flatMap_right _
  have hempty : (s.findingsOf x faults files').isEmpty = (s.findingsOf x faults files).isEmpty :=
    hfindings.isEmpty_eq.symm
  have hkept := s.keptFindings_eq_flatMap x faults hpaths
  have hkept' := s.keptFindings_eq_flatMap x faults (hperm.pairwise hpaths Ne.symm)
  simp only [Surveyor.reportOf, ofFindings_eq, hempty, hkept, hkept']
  -- The weights are asked for in both orders or in neither.
  have hwhole : ∀ weights, (if (s.findingsOf x faults files).isEmpty then .ok [] else s.weights) =
      .ok weights → weights.Whole := by
    intro weights h
    split at h
    · rw [← Except.ok.inj h]
      intro e he
      contradiction
    · exact hweights weights h
  cases hw : (if (s.findingsOf x faults files).isEmpty then .ok [] else s.weights) with
  | error e => exact ⟨fun _ h => h, fun r h => by contradiction⟩
  | ok weights =>
    refine ⟨fun e h => by contradiction, fun r h => ⟨_, rfl, ?_, ?_⟩⟩
    · rw [← Except.ok.inj h]
      exact Security.Summary.ofFindings_eq_of_perm (hwhole weights hw)
        (hperm.symm.flatMap_right _)
    · rw [← Except.ok.inj h]
      exact (inReportOrder_eq_of_perm hperm hpaths rfl rfl).symm

/-- The quality of the same files is the same. -/
theorem Surveyor.qualityOf_eq_of_perm (hperm : files.Perm files')
    (hfunctions : (s.functionsOf x faults files).Perm (s.functionsOf x faults files')) :
    s.qualityOf x faults files = s.qualityOf x faults files' := by
  have hdetected := Metrics.detect_congr Metrics.standardMarkers fun _ => hperm.mem_iff
  rw [Surveyor.qualityOf, Surveyor.qualityOf, hdetected]
  exact s.scale.score_eq_of_perm s.thresholds hfunctions (hperm.map _) _

/-- The block of a file is what the file contributes. -/
theorem Surveyor.block_assembled (report : Security.Report) (quality : Int)
    (hpaths : files.Pairwise fun f g => f.path ≠ g.path) {file : SourceFile} (hfile : file ∈ files)
    (k : Kind) :
    (s.assembled x faults files report quality).block file k =
      s.entitiesIn x faults files file k := by
  rw [Analysis.block, Surveyor.entities_eq_flatMap]
  exact filter_flatMap_eq_block k.filePath hpaths
    (fun _ _ he => Surveyor.filePath_of_mem_entitiesIn he) hfile

theorem joined_perm {surveys surveys' : List FileSurvey} (h : surveys.Perm surveys') (k : Kind) :
    (joined surveys k).Perm (joined surveys' k) := by
  unfold joined
  exact h.flatMap_right _

/-- Analyses that are assembled from the same files in different orders. -/
theorem Surveyor.assembled_perm {r r' : Security.Report} (quality : Int)
    (hperm : files.Perm files') (hpaths : files.Pairwise fun f g => f.path ≠ g.path)
    (hsummary : r'.summary = r.summary)
    (horder : Report.inReportOrder r' = Report.inReportOrder r) :
    SameUpToOrder files files' (s.assembled x faults files r quality)
      (s.assembled x faults files' r' quality) := by
  have hpaths' := hperm.pairwise hpaths Ne.symm
  have hsurveys := hperm.map (s.surveyOf x faults)
  -- Every part of an analysis is either a set of things, which the order does not touch, or is told
  -- file by file.
  have hcount (k : Kind) : (joined (files'.map (s.surveyOf x faults)) k).length =
      (joined (files.map (s.surveyOf x faults)) k).length :=
    (joined_perm hsurveys.symm k).length_eq
  have hblock (file : SourceFile) (hfile : file ∈ files) (k : Kind) :
      (s.assembled x faults files r quality).block file k = s.entitiesIn x faults files file k :=
    Surveyor.block_assembled r quality hpaths hfile k
  have hconfig (list : List SourceFile) : Manifest.configFiles (list.map s.infoOf) =
      list.filterMap fun file => Manifest.configFile? file.path := by
    rw [Manifest.configFiles, List.filterMap_map]
    rfl
  refine ⟨?_, hsummary, securityReport_congr hsummary horder, rfl, ?_, ?_, ?_, fun k => ?_,
    fun k => ?_, ⟨s.infoOf, fun _ => rfl, rfl, rfl⟩, hconfig files, hconfig files'⟩
  · simp only [Surveyor.assembled, Surveyor.classified, hcount]
    exact (Metrics.Statistics.of_eq_of_perm s.shown _ (hperm.map _)
      (s.functionsOf_perm x faults hperm) (Surveyor.functionsOf_ties hperm hpaths)).symm
  · exact Metrics.detect_congr Metrics.standardMarkers fun _ => hperm.symm.mem_iff
  · simp only [Surveyor.assembled, declarationsOf_zip_map]
    exact Environment.variablesOf_congr (fun _ => (hsurveys.symm.flatMap_right _).mem_iff)
      (declares_iff_of_perm _ hperm hpaths)
  · simp only [Surveyor.assembled, Manifest.dependencies_eq_of_perm hperm hpaths]
  · rw [Surveyor.entities_eq_flatMap]
    exact List.flatMap_congr fun file hfile => (hblock file hfile k).symm
  · rw [Surveyor.entities_eq_flatMap]
    refine List.flatMap_congr fun file hfile => ?_
    rw [hblock file (hperm.mem_iff.mpr hfile) k, Surveyor.entitiesIn, Surveyor.entitiesIn,
      s.functionsIn_eq_of_perm x faults hperm]

/-- Analyses of the same files are reached, or fail, alike. -/
theorem Surveyor.analyze_perm (s : Surveyor) (faults : Faults) (hperm : files.Perm files')
    (hpaths : files.Pairwise fun f g => f.path ≠ g.path)
    (hweights : ∀ weights, s.weights = .ok weights → weights.Whole) :
    Agree (SameUpToOrder files files') (s.analyze files faults) (s.analyze files' faults) := by
  have hcategories : s.checkCategories files' = s.checkCategories files := by
    rw [Surveyor.checkCategories, Surveyor.checkCategories, hperm.isEmpty_eq]
  rw [s.analyze_eq, s.analyze_eq, hcategories]
  refine Agree.of_eq.bind fun _ _ _ => Agree.of_eq.bind ?_
  rintro x _ rfl
  refine (s.reportOf_perm x faults hperm hpaths hweights).bind fun r r' hreport => ?_
  rw [Surveyor.qualityOf_eq_of_perm hperm (s.functionsOf_perm x faults hperm)]
  refine Agree.of_eq.bind ?_
  rintro quality _ rfl
  refine ⟨fun e h => by contradiction, fun a ha => ⟨_, rfl, ?_⟩⟩
  rw [← Except.ok.inj ha]
  exact Surveyor.assembled_perm quality hperm hpaths hreport.1 hreport.2

/-- **The order of files.** Files whose paths differ can be given in any order, provided that
findings are weighed in whole numbers: sums of doubles depend on the order. An analysis that cannot
be reached in one order cannot in another, for the same reason. -/
theorem analysisOf_perm (user : Settings) (workers : Option Int) (faults : Faults)
    {files files' : List SourceFile} (hperm : files.Perm files')
    (hpaths : (files.map SourceFile.path).Nodup)
    (hweights : ∀ weights, Security.weightsOf (merge user) = .ok weights → weights.Whole) :
    Agree (SameUpToOrder files files') (analysisOf user workers files faults)
      (analysisOf user workers files' faults) := by
  unfold analysisOf
  cases hs : Surveyor.ofSettings user workers with
  | error e => exact ⟨fun _ h => h, fun a h => by contradiction⟩
  | ok s =>
    refine s.analyze_perm faults hperm (List.pairwise_map.mp hpaths) fun weights hw => ?_
    rw [Surveyor.weights_of_ofSettings hs] at hw
    exact hweights weights hw

/-- Two files that are told apart by their paths, given in both orders under the default settings. -/
theorem analysisOf_perm_standard :
    let files : List SourceFile := [
      { path := "src/a.ts", content := "function f() {}" },
      { path := "src/b.ts", content := "function g() { f() }" }]
    ∃ a b, analysisOf [] none files = .ok a ∧ analysisOf [] none files.reverse = .ok b ∧
      SameUpToOrder files files.reverse a b := by
  intro files
  have hweights : ∀ weights, Security.weightsOf (merge []) = .ok weights → weights.Whole := by
    intro weights hw
    have hstandard : Security.weightsOf (merge []) =
        .ok (defaultWeights.map fun e => (e.1, .int e.2)) := rfl
    rw [← Except.ok.inj (hstandard.symm.trans hw)]
    intro e he
    obtain ⟨w, -, rfl⟩ := List.mem_map.mp he
    exact ⟨w.2, rfl⟩
  obtain ⟨s, hs, husable⟩ := standard_usable
  obtain ⟨a, ha⟩ := husable.analyze_ok files []
  have ha : analysisOf [] none files = .ok a := by
    rw [analysisOf, hs]
    exact ha
  obtain ⟨b, hb, hsame⟩ :=
    (analysisOf_perm [] none [] (List.reverse_perm files).symm (by decide) hweights).2 a ha
  exact ⟨a, b, ha, hb, hsame⟩

end CodeSurvey.Survey
