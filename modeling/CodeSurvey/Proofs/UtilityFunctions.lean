import CodeSurvey.Proofs.Callers

/-!
# Functions of utility modules

A utility module holds the functions of its file as they were found there. An analysis lists the same
functions, but it tells them their callers only after all files have been surveyed, and the utility
modules do not learn of it.

- `mem_withCallers_self_iff`, `listed_of_unaware`: functions that do not know their callers.
- `Surveyor.functions_of_mem_utilities`: what a utility module holds.
- `Surveyor.utility_functions_listed`: how it is listed in an analysis.
- `utility_function_unlisted`: a utility module whose function is not listed as it stands there.
-/

namespace CodeSurvey

/-! ## Functions of a file -/

namespace Extract

/-- A function that was just found does not know its callers. -/
theorem calledBy_of_mem_functions {limits : Limits} {v : View} {f : Function}
    (h : f ∈ functions limits v) : f.calledBy = [] := by
  unfold functions at h
  obtain ⟨s, -, h⟩ := List.mem_filterMap.mp h
  obtain ⟨c, -, rfl⟩ := Option.map_eq_some_iff.mp h
  rfl

end Extract

namespace Survey

open Extract (Extractors Faults)

variable {s : Surveyor} {x : Extractors} {faults : Faults} {file : SourceFile}

/-- The functions that a file contributes do not know their callers. -/
theorem Surveyor.calledBy_of_mem_surveyOf {f : Function}
    (h : f ∈ (s.surveyOf x faults file).entities .functions) : f.calledBy = [] := by
  rw [(s.surveyOf_spec x faults file).1, Extract.Context.left, Extractors.entitiesWithout_eq] at h
  split at h
  · contradiction
  · exact Extract.calledBy_of_mem_functions h

/-- A utility module holds all functions that its file contributes. -/
theorem Surveyor.functions_of_mem_utilities {u : Utility}
    (h : u ∈ (s.surveyOf x faults file).entities .utilities) :
    u.functions = (s.surveyOf x faults file).entities .functions := by
  rw [(s.surveyOf_spec x faults file).1] at h ⊢
  rw [Extract.Context.left, Extractors.entitiesWithout_eq] at h
  split at h
  · contradiction
  · simp only [Extractors.found, Extract.utilities] at h
    split at h
    · contradiction
    · rw [List.mem_singleton.mp h]
      rfl

/-! ## Callers -/

/-- A function that knows no callers is found again among functions that do exactly if it has
none. -/
theorem mem_withCallers_self_iff {functions : List Function} {f : Function} (hf : f ∈ functions)
    (hunaware : f.calledBy = []) : f ∈ withCallers functions ↔ callersOf functions f = [] := by
  rw [mem_withCallers]
  constructor
  · rintro ⟨g, -, rfl⟩
    exact hunaware
  · intro hnone
    refine ⟨f, hf, ?_⟩
    rw [hnone, ← hunaware]

/-- A function that knows no callers is listed with them, if they are looked for, and stays as it is
only if it has none. -/
theorem listed_of_unaware {functions : List Function} {f : Function} (hf : f ∈ functions)
    (hunaware : f.calledBy = []) (crossReference : Bool) {listed : List Function}
    (hlisted : listed = if crossReference then withCallers functions else functions) :
    { f with calledBy := if crossReference then callersOf listed f else [] } ∈ listed ∧
      (f ∈ listed ↔ crossReference = false ∨
        ∀ g ∈ listed, f.name ∈ g.callsTo → g.name = f.name) := by
  cases crossReference with
  | false =>
    rw [if_neg Bool.false_ne_true] at hlisted ⊢
    subst hlisted
    have hsame : { f with calledBy := [] } = f := by rw [← hunaware]
    rw [hsame]
    exact ⟨hf, iff_of_true hf (.inl rfl)⟩
  | true =>
    rw [if_pos rfl] at hlisted ⊢
    subst hlisted
    rw [← callersOf_eq_nil_iff, callersOf_withCallers]
    refine ⟨mem_withCallers.mpr ⟨f, hf, rfl⟩, ?_⟩
    simpa using mem_withCallers_self_iff hf hunaware

/-! ## Whole analyses -/

/-- **Functions of utility modules.** A function that a utility module holds does not know its
callers there. The analysis lists the same function, with its callers if they are looked for. So the
function is listed as it stands in the utility module exactly if they are not looked for, or if no
function of another name calls it. -/
theorem Surveyor.utility_functions_listed {files : List SourceFile} {a : Analysis}
    (h : s.analyze files faults = .ok a) {u : Utility} (hu : u ∈ a.entities .utilities)
    {f : Function} (hf : f ∈ u.functions) :
    f.calledBy = [] ∧
      { f with calledBy := if s.crossReference then callersOf a.functions f else [] } ∈
        a.functions ∧
      (f ∈ a.functions ↔ s.crossReference = false ∨
        ∀ g ∈ a.functions, f.name ∈ g.callsTo → g.name = f.name) := by
  obtain ⟨-, x, report, quality, -, -, -, ha⟩ := Surveyor.analyze_eq_ok_iff.mp h
  have hlisted : a.functions = s.functionsOf x faults files := by
    rw [← ha]
    exact s.assembled_functions x faults files report quality
  rw [← ha, s.assembled_entities x faults files report quality (by decide)] at hu
  obtain ⟨file, hfile, hu⟩ := List.mem_flatMap.mp hu
  rw [Surveyor.functions_of_mem_utilities hu] at hf
  have hfound : f ∈ files.flatMap fun file => (s.surveyOf x faults file).entities .functions :=
    List.mem_flatMap_of_mem hfile hf
  have hunaware := Surveyor.calledBy_of_mem_surveyOf hf
  exact ⟨hunaware, listed_of_unaware hfound hunaware s.crossReference hlisted⟩

/-- Two utility modules, and a call from one to the other. -/
def mathFiles : List SourceFile := [
  { path := "src/utils/a.ts", content := "function a() \x7b b() \x7d\n" },
  { path := "src/utils/b.ts", content := "function b() \x7b\x7d\n" }]

/-- Who is said to call each function, in the utility modules and in the whole analysis. -/
theorem analyze_mathFiles :
    ∃ s a, Surveyor.ofSettings [] none = .ok s ∧ s.analyze mathFiles = .ok a ∧
      ((a.entities .utilities).map fun u => u.functions.map fun f => (f.name, f.calledBy)) =
        [[("a", [])], [("b", [])]] ∧
      (a.functions.map fun f => (f.name, f.calledBy)) = [("a", []), ("b", ["a"])] := by
  have hcallers : ((Surveyor.ofSettings [] none >>= fun s => s.analyze mathFiles).map fun a =>
      ((a.entities .utilities).map fun u => u.functions.map fun f => (f.name, f.calledBy),
        a.functions.map fun f => (f.name, f.calledBy))).toOption =
      some ([[("a", [])], [("b", [])]], [("a", []), ("b", ["a"])]) := by
    decide +kernel
  obtain ⟨a, ha, hseen⟩ := exists_eq_ok_of_map hcallers
  obtain ⟨s, hs, ha⟩ := bind_eq_ok.mp ha
  exact ⟨s, a, hs, ha, Prod.mk.inj hseen⟩

/-- The function that is called, under the default settings. -/
theorem Surveyor.utility_functions_listed_standard :
    ∃ s a, Surveyor.ofSettings [] none = .ok s ∧ s.analyze mathFiles = .ok a ∧
      ∃ u ∈ a.entities .utilities, ∃ f ∈ u.functions, f.name = "b" ∧ f.calledBy = [] ∧
        { f with calledBy := if s.crossReference then callersOf a.functions f else [] } ∈
          a.functions ∧
        (f ∈ a.functions ↔ s.crossReference = false ∨
          ∀ g ∈ a.functions, f.name ∈ g.callsTo → g.name = f.name) := by
  obtain ⟨s, a, hs, ha, hutilities, -⟩ := analyze_mathFiles
  obtain ⟨u, hu, hfunctions⟩ :=
    List.mem_map.mp (hutilities ▸ List.mem_cons_of_mem [("a", [])] List.mem_cons_self)
  obtain ⟨f, hf, hcalled⟩ := List.mem_map.mp (hfunctions ▸ List.mem_cons_self)
  exact ⟨s, a, hs, ha, u, hu, f, hf, (Prod.mk.inj hcalled).1,
    Surveyor.utility_functions_listed ha hu hf⟩

/-- **A function without its caller.** The analysis lists the function that is called with its
caller, and so not as it stands in its utility module. -/
theorem utility_function_unlisted :
    ∃ a, analysisOf [] none mathFiles = .ok a ∧
      ∃ u ∈ a.entities .utilities, ∃ f ∈ u.functions, f ∉ a.functions := by
  obtain ⟨s, a, hs, ha, hutilities, hlisted⟩ := analyze_mathFiles
  obtain ⟨u, hu, hfunctions⟩ :=
    List.mem_map.mp (hutilities ▸ List.mem_cons_of_mem [("a", [])] List.mem_cons_self)
  obtain ⟨f, hf, hcalled⟩ := List.mem_map.mp (hfunctions ▸ List.mem_cons_self)
  refine ⟨a, bind_eq_ok.mpr ⟨s, hs, ha⟩, u, hu, f, hf, fun hmem => ?_⟩
  have hfound : (f.name, f.calledBy) ∈ a.functions.map fun f => (f.name, f.calledBy) :=
    List.mem_map_of_mem hmem
  rw [hlisted, hcalled] at hfound
  revert hfound
  decide

end Survey

end CodeSurvey
