import CodeSurvey.Proofs.Attempts
import CodeSurvey.Proofs.VariableTables
import Mathlib.Data.List.Induction

/-!
# Declarations that analyses keep

What the environment files declare is kept path by path, so of several environment files with one
path only the last one counts.

- `mem_declareNext`: what is kept after one more file.
- `mem_foldl_declareNext`: what is kept after all files.
- `Surveyor.recorded_iff_last`: which declarations an analysis records.
- `Surveyor.declared_recorded`: what the last environment file with its path declares is recorded.
-/

namespace CodeSurvey

namespace Survey

open Environment (Declarations declaredNames)
open Extract (Extractors Faults)

variable {survey : SourceFile → FileSurvey} {acc : Declarations} {path name : String}
  {names : List String}

/-! ## File by file -/

/-- The files at the path that have declarations. -/
def declaringAt (survey : SourceFile → FileSurvey) (path : String) (files : List SourceFile) :
    List SourceFile :=
  files.filter fun file => file.path == path && (survey file).declared.isSome

/-- What is kept after one more file: what this file declares, or else what was kept before it. -/
theorem mem_declareNext (file : SourceFile) : (path, names) ∈ declareNext survey acc file ↔
    if file.path = path ∧ (survey file).declared.isSome then (survey file).declared = some names
    else (path, names) ∈ acc := by
  rw [declareNext]
  cases hdeclared : (survey file).declared with
  | none => simp
  | some found =>
    by_cases hpath : file.path = path
    · subst hpath
      simp [eq_comm]
    · have hother : path ≠ file.path := Ne.symm hpath
      simp [hpath, hother]

/-- **One file for each path.** What is kept for a path is what the last file there declares. The
induction is on the files from the end, as the last one decides. -/
theorem mem_foldl_declareNext (files : List SourceFile) :
    (path, names) ∈ files.foldl (declareNext survey) [] ↔
      ∃ last ∈ (declaringAt survey path files).getLast?, (survey last).declared = some names := by
  induction files using List.reverseRecOn with
  | nil => simp [declaringAt]
  | append_singleton files file ih =>
    rw [List.foldl_append, List.foldl_cons, List.foldl_nil, mem_declareNext, declaringAt,
      List.filter_append]
    split
    · rename_i hdeclares
      have hkept : (file.path == path && (survey file).declared.isSome) = true := by
        simpa using hdeclares
      rw [List.filter_cons, if_pos hkept, List.filter_nil, List.getLast?_concat]
      simp
    · rename_i hdeclares
      have hpassed : ¬ (file.path == path && (survey file).declared.isSome) = true := by
        simpa using hdeclares
      rw [List.filter_cons, if_neg hpassed, List.filter_nil, List.append_nil, ih, declaringAt]

/-! ## Whole analyses -/

variable {s : Surveyor} {faults : Faults} {files : List SourceFile} {a : Analysis}

/-- The environment files at the path. -/
def Surveyor.environmentFilesAt (s : Surveyor) (path : String) (files : List SourceFile) :
    List SourceFile :=
  files.filter fun file => file.path == path && (s.infoOf file).language == "dotenv"

theorem Surveyor.declaringAt_surveyOf {x : Extractors} (hworks : faults.lookup "env" = none)
    (path : String) (files : List SourceFile) :
    declaringAt (s.surveyOf x faults) path files = s.environmentFilesAt path files := by
  refine List.filter_congr fun file _ => ?_
  rw [s.surveyOf_declared, hworks]
  cases (s.infoOf file).language == "dotenv" <;> rfl

/-- An analysis records what the last environment file with a path declares, and nothing else. -/
theorem Surveyor.recorded_iff_last (h : s.analyze files faults = .ok a)
    (hworks : faults.lookup "env" = none) (path name : String) :
    (∃ v ∈ a.environment, v.name = name ∧ path ∈ v.declaredIn) ↔
      ∃ last ∈ (s.environmentFilesAt path files).getLast?,
        name ∈ declaredNames last.content.toList := by
  obtain ⟨-, x, report, quality, -, -, -, rfl⟩ := Surveyor.analyze_eq_ok_iff.mp h
  have hlast {last : SourceFile} (h : last ∈ (s.environmentFilesAt path files).getLast?) :
      (s.surveyOf x faults last).declared = some (declaredNames last.content.toList) := by
    have hmem := List.mem_of_getLast? h
    simp only [environmentFilesAt, List.mem_filter, Bool.and_eq_true] at hmem
    rw [s.surveyOf_declared, hworks, hmem.2.2]
    rfl
  rw [Surveyor.assembled, Environment.recorded_iff, declarationsOf_zip_map]
  constructor
  · rintro ⟨⟨_, names⟩, hkept, rfl, hname⟩
    obtain ⟨last, hmem, hnames⟩ := (mem_foldl_declareNext files).mp hkept
    rw [Surveyor.declaringAt_surveyOf hworks] at hmem
    rw [hlast hmem, Option.some.injEq] at hnames
    exact ⟨last, hmem, hnames ▸ hname⟩
  · rintro ⟨last, hmem, hname⟩
    refine ⟨(path, _), (mem_foldl_declareNext files).mpr ⟨last, ?_, hlast hmem⟩, rfl, hname⟩
    rwa [Surveyor.declaringAt_surveyOf hworks]

/-- **Declarations that are recorded.** Every name that an environment file declares is recorded
with its path if no later environment file has this path. If there are several, the last one alone
tells what is recorded. -/
theorem Surveyor.declared_recorded (h : s.analyze files faults = .ok a)
    (hworks : faults.lookup "env" = none) :
    (∀ before file after, files = before ++ file :: after → (s.infoOf file).language = "dotenv" →
      (∀ later ∈ after, (s.infoOf later).language = "dotenv" → later.path ≠ file.path) →
      ∀ name ∈ declaredNames file.content.toList,
        ∃ v ∈ a.environment, v.name = name ∧ file.path ∈ v.declaredIn) ∧
    ∀ path name, (∃ v ∈ a.environment, v.name = name ∧ path ∈ v.declaredIn) ↔
      ∃ last ∈ (s.environmentFilesAt path files).getLast?,
        name ∈ declaredNames last.content.toList := by
  have hrecorded := s.recorded_iff_last h hworks
  refine ⟨fun before file after hfiles hdotenv hlater name hname => ?_, hrecorded⟩
  have hnone : s.environmentFilesAt file.path after = [] := by
    refine List.filter_eq_nil_iff.mpr fun later hmem => ?_
    simpa [imp_not_comm] using hlater later hmem
  have hlast : (s.environmentFilesAt file.path files).getLast? = some file := by
    rw [hfiles, Surveyor.environmentFilesAt, List.filter_append,
      List.filter_cons_of_pos (by simp [hdotenv]), ← Surveyor.environmentFilesAt,
      ← Surveyor.environmentFilesAt, hnone, List.getLast?_concat]
  exact (hrecorded file.path name).mpr ⟨file, hlast, hname⟩

/-- Two environment files with one path. -/
def environmentFiles : List SourceFile :=
  [{ path := ".env", content := "A=1\n" }, { path := ".env", content := "B=2\n" }]

theorem analyze_environmentFiles :
    ∃ s a, Surveyor.ofSettings [] none = .ok s ∧ s.analyze environmentFiles = .ok a ∧
      (environmentFiles.map fun file => (s.infoOf file).language) = ["dotenv", "dotenv"] ∧
      a.environment = [⟨"B", [], [".env"], false⟩] := by
  have hlanguages : ((Surveyor.ofSettings [] none).map fun s =>
      environmentFiles.map fun file => (s.infoOf file).language).toOption =
        some ["dotenv", "dotenv"] := by
    decide +kernel
  have hrecords : ((analysisOf [] none environmentFiles).map (·.environment)).toOption =
      some [⟨"B", [], [".env"], false⟩] := by
    decide +kernel
  obtain ⟨s, hs, hseen⟩ := exists_eq_ok_of_map hlanguages
  obtain ⟨a, ha, henvironment⟩ := exists_eq_ok_of_map hrecords
  obtain ⟨s', hs', ha⟩ := bind_eq_ok.mp ha
  obtain rfl := Except.ok.inj (hs.symm.trans hs')
  exact ⟨s, a, hs, ha, hseen, henvironment⟩

/-- The second of them, under the default settings. -/
theorem Surveyor.declared_recorded_standard :
    ∃ s a, Surveyor.ofSettings [] none = .ok s ∧ s.analyze environmentFiles = .ok a ∧
      ∃ v ∈ a.environment, v.name = "B" ∧ ".env" ∈ v.declaredIn := by
  obtain ⟨s, a, hs, ha, hlanguages, -⟩ := analyze_environmentFiles
  obtain ⟨-, hsecond⟩ := List.cons.inj hlanguages
  refine ⟨s, a, hs, ha, (Surveyor.declared_recorded ha rfl).1 [environmentFiles[0]]
    environmentFiles[1] [] rfl (List.cons.inj hsecond).1 (fun later h => by contradiction) "B" ?_⟩
  decide +kernel

/-- The first one declares a name that is recorded nowhere. -/
theorem declaration_lost :
    ∃ s a, Surveyor.ofSettings [] none = .ok s ∧ s.analyze environmentFiles = .ok a ∧
      ∃ file ∈ environmentFiles, (s.infoOf file).language = "dotenv" ∧
        ∃ name ∈ declaredNames file.content.toList,
          ¬ ∃ v ∈ a.environment, v.name = name ∧ file.path ∈ v.declaredIn := by
  obtain ⟨s, a, hs, ha, hlanguages, henvironment⟩ := analyze_environmentFiles
  refine ⟨s, a, hs, ha, environmentFiles[0], List.mem_cons_self, (List.cons.inj hlanguages).1, "A",
    by decide +kernel, ?_⟩
  rw [henvironment]
  decide

end Survey

end CodeSurvey
