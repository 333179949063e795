import CodeSurvey.Manifest.Dependency
import CodeSurvey.Metrics.Quality
import CodeSurvey.Metrics.Statistics
import CodeSurvey.Proofs.StableSort
import CodeSurvey.Report.Security

/-!
# Judgements in another order

Totals, selections and merges over all files come out the same in whatever order the files are given.
Where elements are selected by an order, what ties in it has to come from one file; then sorting
leaves it as it was there.

- `Metrics.Statistics.of_eq_of_perm`, `Metrics.ComplexityReport.score_eq_of_perm`: totals, the
  longest files, the most complex functions, the quality score.
- `Manifest.dependencies_eq_of_perm`: manifests closest to the root.
- `Security.Summary.ofFindings_eq_of_perm`, `Report.inReportOrder_eq`: security reports.
-/

namespace CodeSurvey

/-! ## Orders in use -/

/-- Elements that tie in an order that a comparison gives are those that compare as equal. -/
theorem tie_isLE (cmp : α → α → Ordering) [Std.OrientedCmp cmp] {a b : α} :
    tie (fun a b => (cmp a b).isLE) a b = true ↔ cmp a b = .eq := by
  have hswap : cmp b a = (cmp a b).swap := Std.OrientedCmp.eq_swap
  rw [tie, Bool.and_eq_true, hswap, Ordering.isLE_swap, Ordering.eq_eq_iff_isLE_and_isGE]

namespace Metrics

/-- Longer files first, then by path. -/
def compareSizes : String × Nat → String × Nat → Ordering :=
  compareLex (fun a b => compareOn (·.2) b a) (compareOn (·.1))

instance : Std.TransCmp compareSizes :=
  inferInstanceAs (Std.TransCmp (compareLex _ _))

theorem longerFirst_eq : longerFirst = fun a b => (compareSizes a b).isLE := rfl

theorem isOrder_longerFirst : IsOrder longerFirst :=
  isOrder_isLE compareSizes

/-- No two files of different paths tie. -/
theorem eq_of_tie_longerFirst {a b : String × Nat} (h : tie longerFirst a b = true) : a = b := by
  rw [longerFirst_eq, tie_isLE] at h
  simp only [compareSizes, compareLex, compareOn, Ordering.then_eq_eq,
    Std.LawfulEqOrd.compare_eq_iff_eq] at h
  exact Prod.ext h.2 h.1.symm

/-- More complex functions first, then by path, line and name. -/
def compareFunctions : Function → Function → Ordering :=
  compareLex (fun a b => compareOn (·.complexity) b a) <|
    compareLex (compareOn (·.filePath)) <| compareLex (compareOn (·.lineStart)) (compareOn (·.name))

instance : Std.TransCmp compareFunctions :=
  inferInstanceAs (Std.TransCmp (compareLex _ _))

theorem moreComplexFirst_eq : moreComplexFirst = fun a b => (compareFunctions a b).isLE := rfl

theorem isOrder_moreComplexFirst : IsOrder moreComplexFirst :=
  isOrder_isLE compareFunctions

/-- Functions that tie are in one file. -/
theorem filePath_eq_of_tie {f g : Function} (h : tie moreComplexFirst f g = true) :
    f.filePath = g.filePath := by
  rw [moreComplexFirst_eq, tie_isLE] at h
  simp only [compareFunctions, compareLex, compareOn, Ordering.then_eq_eq,
    Std.LawfulEqOrd.compare_eq_iff_eq] at h
  exact h.2.1

end Metrics

namespace Report

open Security (Finding Severity)

/-- More severe findings first, then by path, line and rule. -/
def compareFindings : Finding → Finding → Ordering :=
  compareLex (compareOn fun f => Severity.all.idxOf f.rule.severity) <|
    compareLex (compareOn (·.filePath)) <| compareLex (compareOn (·.line)) (compareOn (·.rule.id))

instance : Std.TransCmp compareFindings :=
  inferInstanceAs (Std.TransCmp (compareLex _ _))

theorem worseFirst_eq : worseFirst = fun a b => (compareFindings a b).isLE := rfl

theorem isOrder_worseFirst : IsOrder worseFirst :=
  isOrder_isLE compareFindings

/-- Findings that tie are in one file. -/
theorem filePath_eq_of_tie_worseFirst {f g : Finding} (h : tie worseFirst f g = true) :
    f.filePath = g.filePath := by
  rw [worseFirst_eq, tie_isLE] at h
  simp only [compareFindings, compareLex, compareOn, Ordering.then_eq_eq,
    Std.LawfulEqOrd.compare_eq_iff_eq] at h
  exact h.2.1

end Report

namespace Manifest

/-- Files closer to the root first, then by path. -/
def compareFiles : SourceFile → SourceFile → Ordering :=
  compareLex (compareOn fun f => depth f.path.toList) (compareOn (·.path))

instance : Std.TransCmp compareFiles :=
  inferInstanceAs (Std.TransCmp (compareLex _ _))

theorem closer_eq : closer = fun a b => (compareFiles a b).isLE := rfl

theorem isOrder_closer : IsOrder closer :=
  isOrder_isLE compareFiles

theorem path_eq_of_tie_closer {f g : SourceFile} (h : tie closer f g = true) :
    f.path = g.path := by
  rw [closer_eq, tie_isLE] at h
  simp only [compareFiles, compareLex, compareOn, Ordering.then_eq_eq,
    Std.LawfulEqOrd.compare_eq_iff_eq] at h
  exact h.2

end Manifest

/-! ## Statistics -/

namespace Metrics

theorem LineCounts.sum_eq_of_perm {counts counts' : List LineCounts} (h : counts.Perm counts') :
    LineCounts.sum counts = LineCounts.sum counts' := by
  refine h.foldl_eq' (fun a _ b _ c => ?_) _
  change LineCounts.mk _ _ _ = LineCounts.mk _ _ _
  simp only [LineCounts.mk.injEq]
  exact ⟨Nat.add_right_comm .., Nat.add_right_comm .., Nat.add_right_comm ..⟩

/-- The size of a file as statistics show it. -/
def sizeOf (file : ClassifiedFile) : String × Nat :=
  (file.2.path, (LineCounts.ofText file.1.content.toList file.2.language).total)

theorem sizes_eq (files : List ClassifiedFile) :
    files.zipWith (fun f c => (f.2.path, LineCounts.total c))
      (files.map fun f => LineCounts.ofText f.1.content.toList f.2.language) =
        files.map sizeOf := by
  induction files with
  | nil => rfl
  | cons file rest ih =>
    rw [List.map_cons, List.zipWith_cons_cons, ih]
    rfl

/-- **Statistics.** They do not depend on the order of the files, nor on that of the functions as
long as functions that tie keep theirs. -/
theorem Statistics.of_eq_of_perm (most : Option Int) {files files' : List ClassifiedFile}
    {functions functions' : List Function} (entities : EntityCounts) (hfiles : files.Perm files')
    (hfunctions : functions.Perm functions')
    (hties : ∀ f, functions.filter (tie moreComplexFirst f) =
      functions'.filter (tie moreComplexFirst f)) :
    Statistics.of most files functions entities = Statistics.of most files' functions' entities := by
  have hcounts := LineCounts.sum_eq_of_perm
    (hfiles.map fun f => LineCounts.ofText f.1.content.toList f.2.language)
  have hlanguages := Text.tally_eq_of_perm (hfiles.map fun f => f.2.language)
  have hsizes : (files.map sizeOf).mergeSort longerFirst =
      (files'.map sizeOf).mergeSort longerFirst :=
    mergeSort_eq_of_perm isOrder_longerFirst (hfiles.map sizeOf) fun a _ b _ hab hba =>
      eq_of_tie_longerFirst (by rw [tie, hab, hba]; rfl)
  have hcomplex := mergeSort_eq_of_ties isOrder_moreComplexFirst hties
  simp only [Statistics.of, sizes_eq, hcounts, hlanguages, hsizes, hcomplex,
    hfiles.length_eq, hfunctions.length_eq]

/-! ## Quality -/

theorem averageComplexity_eq_of_perm {functions functions' : List Function}
    (h : functions.Perm functions') :
    averageComplexity functions = averageComplexity functions' := by
  have hsum : functions.foldl (fun n f => n + f.complexity) 0 =
      functions'.foldl (fun n f => n + f.complexity) 0 :=
    h.foldl_eq' (fun _ _ _ _ _ => Nat.add_right_comm ..) 0
  simp only [averageComplexity, hsum, h.isEmpty_eq, h.length_eq]

/-- A quality score does not depend on the order of files and functions. -/
theorem QualityScale.score_eq_of_perm (q : QualityScale) (t : Thresholds)
    {functions functions' : List Function} {files files' : List ClassifiedFile}
    (hfunctions : functions.Perm functions') (hfiles : files.Perm files') (found : List String) :
    q.score (ComplexityReport.of t functions files) found =
      q.score (ComplexityReport.of t functions' files') found := by
  have hlong := (hfunctions.filter t.isLong).length_eq
  have hdeep := (hfiles.filter t.isDeep).length_eq
  simp only [QualityScale.score, ComplexityReport.of, averageComplexity_eq_of_perm hfunctions,
    List.length_map, hlong, hdeep]

end Metrics

/-! ## Dependencies -/

namespace Manifest

variable {files files' : List SourceFile}

/-- The manifest closest to the root does not depend on the order of the files. -/
theorem closest?_eq_of_perm (hperm : files.Perm files')
    (hpaths : files.Pairwise fun f g => f.path ≠ g.path) : closest? files = closest? files' := by
  have hsort := mergeSort_eq_of_perm isOrder_closer hperm fun f hf g hg hfg hgf =>
    eq_of_key_eq hpaths hf hg (path_eq_of_tie_closer (by rw [tie, hfg, hgf]; rfl))
  rw [closest?, closest?, hsort]

/-- The manifests closest to the root do not depend on the order of the files. -/
theorem shallowest_eq_of_perm (hperm : files.Perm files')
    (hpaths : files.Pairwise fun f g => f.path ≠ g.path) : shallowest files = shallowest files' := by
  have hsort : (files.mergeSort fun a b => decide (a.path ≤ b.path)) =
      files'.mergeSort fun a b => decide (a.path ≤ b.path) :=
    mergeSort_eq_of_perm (isOrder_names.on SourceFile.path) hperm fun f hf g hg hfg hgf => by
      rw [decide_eq_true_eq] at hfg hgf
      exact eq_of_key_eq hpaths hf hg (String.le_antisymm hfg hgf)
  have hleast : (files.map fun f => depth f.path.toList).min? =
      (files'.map fun f => depth f.path.toList).min? := by
    ext least
    simp only [List.min?_eq_some_iff, (hperm.map _).mem_iff]
  simp only [shallowest, hsort, hleast]

/-- **Dependencies.** Of files with different paths, the same manifests count in any order. -/
theorem dependencies_eq_of_perm (hperm : files.Perm files')
    (hpaths : files.Pairwise fun f g => f.path ≠ g.path) :
    dependencies files = dependencies files' := by
  have hkind (k : ManifestKind) := hperm.filter fun f => manifestKind? f.path == some k
  have hapart (k : ManifestKind) := hpaths.filter fun f => manifestKind? f.path == some k
  unfold dependencies
  simp only [closest?_eq_of_perm (hkind _) (hapart _), shallowest_eq_of_perm (hkind _) (hapart _)]

end Manifest

/-! ## Security -/

namespace Security

/-- Every weight is a whole number. -/
def Weights.Whole (weights : Weights) : Prop :=
  ∀ e ∈ weights, ∃ n : Int, e.2 = .int n

theorem Weights.Whole.weight {weights : Weights} (h : weights.Whole) (s : Severity) :
    ∃ n : Int, weights.weight s = .int n := by
  unfold Weights.weight
  cases hs : weights.lookup s.name with
  | none => exact ⟨0, rfl⟩
  | some w =>
    obtain ⟨before, after, hweights, -⟩ := List.lookup_eq_some_iff.mp hs
    exact h (s.name, w) (by simp [hweights])

/-- Whole numbers add up to the same in any order. With doubles that need not be so. -/
theorem sum_eq_of_perm {numbers numbers' : List Number} (hperm : numbers.Perm numbers')
    (h : ∀ x ∈ numbers, ∃ n : Int, x = .int n) : Number.sum numbers = Number.sum numbers' := by
  have hsum (xs : List Number) (hxs : ∀ x ∈ xs, ∃ n : Int, x = .int n) (total : Int) :
      xs.foldl (· + ·) (.int total) = .int ((xs.map Number.toInt).foldl (· + ·) total) := by
    induction xs generalizing total with
    | nil => rfl
    | cons x rest ih =>
      obtain ⟨n, rfl⟩ := hxs x List.mem_cons_self
      exact ih (fun y hy => hxs y (List.mem_cons_of_mem _ hy)) (total + n)
  have hwhole := (hperm.map Number.toInt).foldl_eq'
    (f := fun a b : Int => a + b) (fun _ _ _ _ _ => Int.add_right_comm ..) 0
  rw [Number.sum, Number.sum, hsum numbers h 0,
    hsum numbers' (fun x hx => h x (hperm.mem_iff.mpr hx)) 0, hwhole]

/-- **Summaries.** With whole weights they do not depend on the order of the findings. -/
theorem Summary.ofFindings_eq_of_perm {weights : Weights} (h : weights.Whole)
    {findings findings' : List Finding} (hperm : findings.Perm findings') :
    Summary.ofFindings weights findings = Summary.ofFindings weights findings' := by
  have hscore : Security.score weights (findings.map (·.rule.severity)) =
      Security.score weights (findings'.map (·.rule.severity)) := by
    have hsum := sum_eq_of_perm ((hperm.map (·.rule.severity)).map weights.weight) fun x hx => by
      obtain ⟨s, -, rfl⟩ := List.mem_map.mp hx
      exact h.weight s
    rw [Security.score, Security.score, hsum]
  have hseverity (s : Severity) : (findings.map (·.rule.severity)).count s =
      (findings'.map (·.rule.severity)).count s := (hperm.map _).count_eq s
  have hcategory := Text.tally_eq_of_perm (hperm.map (·.rule.category))
  have hfiles : (findings.map (·.filePath)).eraseDups.length =
      (findings'.map (·.filePath)).eraseDups.length :=
    (eraseDups_perm fun _ => (hperm.map _).mem_iff).length_eq
  simp only [Summary.ofFindings, hscore, hseverity, hcategory, hfiles, hperm.length_eq]

end Security

end CodeSurvey
