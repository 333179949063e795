import CodeSurvey.Proofs.Attempts
import CodeSurvey.Proofs.Detection

/-!
# Files one after the other

What a file contributes is decided by the file and the settings. So an analysis of two lists of files
holds what the analyses of the lists hold, one after the other.

- `Scanner.filePath_of_mem_scan`, `Surveyor.filePath_of_mem_findings`: findings name their file.
- `Surveyor.findings_append`: findings of lists without common paths are listed apart.
- `analysisOf_append`: the analysis of two lists of files.
-/

namespace CodeSurvey

namespace Security

/-- What is found in a file names the file. -/
theorem Scanner.filePath_of_mem_scan {s : Scanner} {path : String} {content : List Char}
    {f : Finding} (h : f ∈ s.scan path content) : f.filePath = path := by
  unfold Scanner.scan at h
  split at h
  · obtain ⟨index, -, h⟩ := List.mem_flatMap.mp h
    obtain ⟨rule, -, h⟩ := List.mem_filterMap.mp h
    unfold Scanner.finding? at h
    split at h
    · rw [← Option.some.inj h]
    · contradiction
  · contradiction

end Security

namespace Survey

open Extract (Faults Extractors Kept)
open Security (Finding)

/-! ## Findings of a file -/

theorem Surveyor.filePath_of_mem_findings {s : Surveyor} {x : Extractors} {faults : Faults}
    {file : SourceFile} {f : Finding} (h : f ∈ (s.surveyOf x faults file).findings) :
    f.filePath = file.path := by
  rw [s.surveyOf_findings] at h
  split at h
  · exact Security.Scanner.filePath_of_mem_scan h
  · contradiction

/-- Findings of files with different paths have no key in common. -/
theorem Surveyor.findings_keys_ne (s : Surveyor) (x : Extractors) (faults : Faults)
    {file other : SourceFile} (h : file.path ≠ other.path) :
    ∀ f ∈ (s.surveyOf x faults file).findings, ∀ g ∈ (s.surveyOf x faults other).findings,
      f.key ≠ g.key := by
  intro f hf g hg hkey
  have hpaths : f.filePath = g.filePath := congrArg (·.2.1) hkey
  rw [Surveyor.filePath_of_mem_findings hf, Surveyor.filePath_of_mem_findings hg] at hpaths
  exact h hpaths

/-! ## Two lists of files -/

variable {s : Surveyor} {x : Extractors} {faults : Faults} {A B : List SourceFile}

theorem Surveyor.findingsOf_append :
    s.findingsOf x faults (A ++ B) = s.findingsOf x faults A ++ s.findingsOf x faults B :=
  List.flatMap_append

/-- An analysis of two lists is reached exactly if one of each is. -/
theorem Surveyor.analyze_append_ok_iff :
    (∃ c, s.analyze (A ++ B) faults = .ok c) ↔
      (∃ a, s.analyze A faults = .ok a) ∧ ∃ b, s.analyze B faults = .ok b := by
  simp only [Surveyor.analyze_ok_iff, Surveyor.findingsOf_append, List.append_eq_nil_iff,
    Metrics.detect_append_eq_nil]
  constructor
  · rintro ⟨hcategories, x, hx, hfindings, hdetected⟩
    exact ⟨⟨hcategories.imp_left And.left, x, hx, hfindings.imp_left And.left,
        hdetected.imp_left And.left⟩,
      hcategories.imp_left And.right, x, hx, hfindings.imp_left And.right,
      hdetected.imp_left And.right⟩
  · rintro ⟨⟨hcategories, x, hx, hfindings, hdetected⟩,
      hcategories', x', hx', hfindings', hdetected'⟩
    obtain rfl : x = x' := Except.ok.inj (hx.symm.trans hx')
    have both {p q r : Prop} (hp : p ∨ r) (hq : q ∨ r) : (p ∧ q) ∨ r := by
      rcases hp with hp | hr
      · exact hq.imp_left (And.intro hp)
      · exact .inr hr
    exact ⟨both hcategories hcategories', x, hx, both hfindings hfindings',
      both hdetected hdetected'⟩

/-- A function without what other functions decide about it. -/
def withoutCallers (f : Function) : Function :=
  { f with calledBy := [] }

/-- Only the callers of functions depend on other functions. -/
theorem Surveyor.functionsOf_withoutCallers (files : List SourceFile) :
    (s.functionsOf x faults files).map withoutCallers =
      files.flatMap fun file => ((s.surveyOf x faults file).entities .functions).map
        withoutCallers := by
  unfold Surveyor.functionsOf withCallers
  split
  · simp only [List.map_map, List.map_flatMap]
    rfl
  · simp only [List.map_flatMap]

/-- An analysis of the files of two lists holds what analyses of the lists hold, one after the other.
Callers are sought among all functions, and findings are told apart by path, line and rule. -/
structure Concatenates (A B : List SourceFile) (a b c : Analysis) : Prop where
  files : c.files = a.files ++ b.files
  entities : ∀ k, k ≠ .functions → c.entities k = a.entities k ++ b.entities k
  functions : c.functions.map withoutCallers = (a.functions ++ b.functions).map withoutCallers
  configFiles : c.configFiles = a.configFiles ++ b.configFiles
  findings : (∀ f ∈ A, ∀ g ∈ B, f.path ≠ g.path) → ∀ listing,
    c.security.listed listing = a.security.listed listing ++ b.security.listed listing

/-- The findings that a report keeps. -/
theorem Surveyor.findings_of_reportOf {report : Security.Report} {files : List SourceFile}
    (h : s.reportOf x faults files = .ok report) :
    report.findings = distinctBy Finding.key (s.findingsOf x faults files) := by
  rw [Surveyor.reportOf, ofFindings_eq] at h
  cases hweights : (if (s.findingsOf x faults files).isEmpty then .ok [] else s.weights) with
  | error e =>
    rw [hweights] at h
    contradiction
  | ok weights =>
    rw [hweights] at h
    rw [← Except.ok.inj h]

theorem Surveyor.findings_append {ra rb rc : Security.Report}
    (ha : s.reportOf x faults A = .ok ra) (hb : s.reportOf x faults B = .ok rb)
    (hc : s.reportOf x faults (A ++ B) = .ok rc) (h : ∀ f ∈ A, ∀ g ∈ B, f.path ≠ g.path) :
    rc.findings = ra.findings ++ rb.findings := by
  rw [s.findings_of_reportOf ha, s.findings_of_reportOf hb, s.findings_of_reportOf hc,
    Surveyor.findingsOf_append]
  refine distinctBy_append fun f hf g hg => ?_
  obtain ⟨file, hfile, hf⟩ := List.mem_flatMap.mp hf
  obtain ⟨other, hother, hg⟩ := List.mem_flatMap.mp hg
  exact s.findings_keys_ne x faults (h file hfile other hother) f hf g hg

/-- Whatever analyses are reached, that of two lists is made up of those of the lists. -/
theorem Surveyor.concatenates {a b c : Analysis} (ha : s.analyze A faults = .ok a)
    (hb : s.analyze B faults = .ok b) (hc : s.analyze (A ++ B) faults = .ok c) :
    Concatenates A B a b c := by
  obtain ⟨-, x, ra, qa, hx, hra, -, rfl⟩ := Surveyor.analyze_eq_ok_iff.mp ha
  obtain ⟨-, xb, rb, qb, hxb, hrb, -, rfl⟩ := Surveyor.analyze_eq_ok_iff.mp hb
  obtain ⟨-, xc, rc, qc, hxc, hrc, -, rfl⟩ := Surveyor.analyze_eq_ok_iff.mp hc
  obtain rfl : x = xb := Except.ok.inj (hx.symm.trans hxb)
  obtain rfl : x = xc := Except.ok.inj (hx.symm.trans hxc)
  refine ⟨?_, fun k hk => ?_, ?_, ?_, fun h listing => ?_⟩
  · exact List.map_append
  · simp only [Surveyor.assembled_entities _ _ _ _ _ _ hk, List.flatMap_append]
  · simp only [Analysis.functions, Surveyor.assembled_functions, List.map_append,
      Surveyor.functionsOf_withoutCallers, List.flatMap_append]
  · simp only [Surveyor.assembled, Manifest.configFiles, List.map_append, List.filterMap_append]
  · have hfindings := Surveyor.findings_append hra hrb hrc h
    simp only [Surveyor.assembled, Security.Report.listed, hfindings, List.filter_append]

/-- **Concatenation.** Whatever the settings and the number of workers, an analysis of two lists of
files is reached exactly if one of each list is, and is made up of these: no file changes what is
found in another. -/
theorem analysisOf_append (user : Settings) (workers : Option Int) (A B : List SourceFile)
    (faults : Faults) :
    (∀ c, analysisOf user workers (A ++ B) faults = .ok c →
      ∃ a b, analysisOf user workers A faults = .ok a ∧ analysisOf user workers B faults = .ok b ∧
        Concatenates A B a b c) ∧
    ∀ a b, analysisOf user workers A faults = .ok a → analysisOf user workers B faults = .ok b →
      ∃ c, analysisOf user workers (A ++ B) faults = .ok c ∧ Concatenates A B a b c := by
  unfold analysisOf
  cases Surveyor.ofSettings user workers with
  | error e =>
    constructor
    · intro c hc
      contradiction
    · intro a b ha
      contradiction
  | ok s =>
    constructor
    · intro c hc
      obtain ⟨⟨a, ha⟩, b, hb⟩ := Surveyor.analyze_append_ok_iff.mp ⟨c, hc⟩
      exact ⟨a, b, ha, hb, Surveyor.concatenates ha hb hc⟩
    · intro a b ha hb
      obtain ⟨c, hc⟩ := Surveyor.analyze_append_ok_iff.mpr ⟨⟨a, ha⟩, b, hb⟩
      exact ⟨c, hc, Surveyor.concatenates ha hb hc⟩

/-- A file with a function, a file that calls it, and what their analyses come to. -/
theorem analysisOf_append_standard :
    let A : List SourceFile := [{ path := "src/a.ts", content := "function f() {}" }]
    let B : List SourceFile := [{ path := "src/b.ts", content := "function g() { f() }" }]
    ∃ a b c, analysisOf [] none A = .ok a ∧ analysisOf [] none B = .ok b ∧
      analysisOf [] none (A ++ B) = .ok c ∧ Concatenates A B a b c := by
  intro A B
  obtain ⟨s, hs, husable⟩ := standard_usable
  have reached (files : List SourceFile) : ∃ a, analysisOf [] none files = .ok a := by
    obtain ⟨a, ha⟩ := husable.analyze_ok files []
    exact ⟨a, by rw [analysisOf, hs]; exact ha⟩
  obtain ⟨a, ha⟩ := reached A
  obtain ⟨b, hb⟩ := reached B
  obtain ⟨c, hc, hconcatenates⟩ := (analysisOf_append [] none A B []).2 a b ha hb
  exact ⟨a, b, c, ha, hb, hc, hconcatenates⟩

end Survey

end CodeSurvey
