import CodeSurvey.Proofs.ReportAccounts

/-!
# Counts that agree

Statistics are counted on their own, from the text of the files; the infos of the files and the
entities that are listed are found elsewhere. This module says that they agree.

- `LineCounts.total_ofText`, `LineCounts.total_sum`: every line is of one kind.
- `Text.mem_tally`: how often a name occurs.
- `Leads`, `leads_best`: the first elements in an order, and those that are not shown.
- `Surveyor.analyze_counts`: the statistics of an analysis, its infos and its entities.
-/

namespace CodeSurvey

open Text

/-! ## Lines -/

namespace Metrics

namespace LineCounts

theorem total_add (a b : LineCounts) : (a + b).total = a.total + b.total := by
  change a.code + b.code + (a.comment + b.comment) + (a.blank + b.blank) =
    a.code + a.comment + a.blank + (b.code + b.comment + b.blank)
  omega

/-- Every line of a text is of one kind. -/
theorem total_ofText (content : List Char) (language : String) :
    (ofText content language).total = (lines content).length := by
  have hall : ∀ kind ∈ (lines content).map (lineKind language),
      kind ∈ [LineKind.code, .comment, .blank] := by
    intro kind _
    cases kind <;> decide
  have hsum := sum_count (by decide) hall
  rw [List.length_map] at hsum
  simpa [ofText, total, Nat.add_assoc] using hsum

/-- The lines of several texts are those of each of them. -/
theorem total_sum (counts : List LineCounts) : (sum counts).total = (counts.map total).sum := by
  have hfold (start : LineCounts) :
      (counts.foldl (· + ·) start).total = start.total + (counts.map total).sum := by
    induction counts generalizing start with
    | nil => rfl
    | cons c rest ih =>
      rw [List.foldl_cons, ih, total_add, List.map_cons, List.sum_cons, Nat.add_assoc]
  rw [sum, hfold]
  exact Nat.zero_add _

end LineCounts

end Metrics

/-! ## Names -/

/-- A tally lists the names that occur, each with how often it does. -/
theorem Text.mem_tally {names : List String} {name : String} {n : Nat} :
    (name, n) ∈ tally names ↔ n = names.count name ∧ 0 < n := by
  rw [tally, List.mem_map]
  constructor
  · rintro ⟨other, hother, heq⟩
    obtain ⟨rfl, rfl⟩ := Prod.mk.inj heq
    exact ⟨rfl, List.count_pos_iff.mpr (mem_sortedNames.mp hother)⟩
  · rintro ⟨rfl, hpos⟩
    exact ⟨name, mem_sortedNames.mpr (List.count_pos_iff.mp hpos), rfl⟩

/-! ## First elements in an order -/

namespace Metrics

/-- The elements that are shown are the first of all in an order, in which some rank before others. -/
structure Leads (ranks : α → α → Prop) (all shown : List α) : Prop where
  ordered : shown.Pairwise fun a b => ¬ranks b a
  /-- All that is shown is among the elements, and none of those left out ranks before it. -/
  unlisted : ∃ left, (shown ++ left).Perm all ∧ ∀ a ∈ shown, ∀ b ∈ left, ¬ranks b a

/-- Longer files rank before others; of files of one length, those whose path comes first. -/
def Longer (a b : String × Nat) : Prop :=
  b.2 < a.2 ∨ a.2 = b.2 ∧ a.1 < b.1

/-- More complex functions rank before others; where they do not differ in that, those whose path
comes first, then those that start at an earlier line, then those whose name comes first. -/
def MoreComplex (f g : Function) : Prop :=
  g.complexity < f.complexity ∨ f.complexity = g.complexity ∧
    (f.filePath < g.filePath ∨ f.filePath = g.filePath ∧
      (f.lineStart < g.lineStart ∨ f.lineStart = g.lineStart ∧ f.name < g.name))

theorem compare_names_eq_lt {a b : String} : compare a b = .lt ↔ a < b :=
  compareOfLessAndEq_eq_lt

theorem longer_iff (a b : String × Nat) : Longer a b ↔ compareSizes a b = .lt := by
  simp only [Longer, compareSizes, compareLex, compareOn, Ordering.then_eq_lt, Std.compare_eq_lt,
    compare_names_eq_lt, Std.compare_eq_iff_eq, eq_comm (a := a.2)]

theorem moreComplex_iff (f g : Function) : MoreComplex f g ↔ compareFunctions f g = .lt := by
  simp only [MoreComplex, compareFunctions, compareLex, compareOn, Ordering.then_eq_lt,
    Std.compare_eq_lt, compare_names_eq_lt, Std.compare_eq_iff_eq, eq_comm (a := f.complexity)]

/-- Signed bounds keep a first part of a list. -/
theorem exists_best_eq_take (most : Option Int) (xs : List α) : ∃ n, best most xs = xs.take n := by
  cases most with
  | none => exact ⟨xs.length, List.take_length.symm⟩
  | some bound => exact ⟨_, rfl⟩

/-- A bound that is not negative shows as many elements as it says, or all of them. -/
theorem length_best (n : Nat) (xs : List α) :
    (best (some (n : Int)) xs).length = min n xs.length := by
  rw [best, upTo_ofNat, List.length_take]

/-- **First elements.** Whatever the bound, the best of the elements are the first ones in order. -/
theorem leads_best (cmp : α → α → Ordering) [Std.TransCmp cmp] (most : Option Int) (xs : List α) :
    Leads (fun a b => cmp a b = .lt) xs (best most (xs.mergeSort fun a b => (cmp a b).isLE)) := by
  have hsorted : (xs.mergeSort fun a b => (cmp a b).isLE).Pairwise fun a b => ¬cmp b a = .lt := by
    have horder := isOrder_isLE cmp
    refine (List.pairwise_mergeSort horder.trans horder.total xs).imp fun {a b} hle hlt => ?_
    have hswap : cmp a b = (cmp b a).swap := Std.OrientedCmp.eq_swap
    rw [hswap, hlt] at hle
    contradiction
  obtain ⟨n, hbest⟩ := exists_best_eq_take most (xs.mergeSort fun a b => (cmp a b).isLE)
  rw [← List.take_append_drop n (xs.mergeSort _), List.pairwise_append] at hsorted
  obtain ⟨hshown, -, hleft⟩ := hsorted
  rw [hbest]
  refine ⟨hshown, _, ?_, hleft⟩
  rw [List.take_append_drop]
  exact List.mergeSort_perm xs _

theorem Leads.of_iff {ranks ranks' : α → α → Prop} {all shown : List α}
    (h : Leads ranks' all shown) (hiff : ∀ a b, ranks a b ↔ ranks' a b) :
    Leads ranks all shown := by
  have heq : ranks = ranks' := by
    funext a b
    exact propext (hiff a b)
  rwa [heq]

/-! ## Statistics -/

/-- What statistics count agrees with the infos of files and with the functions that are listed. -/
structure Statistics.Agrees (t : Statistics) (infos : List FileInfo) (listed : List Function) :
    Prop where
  files : t.files = infos.length
  languages_sum : (t.languages.map (·.2)).sum = infos.length
  /-- Each language that occurs is counted, and no other. -/
  mem_languages : ∀ language n, (language, n) ∈ t.languages ↔
    n = infos.countP (·.language = language) ∧ 0 < n
  lines : t.lines.total = (infos.map (·.lines)).sum
  line_kinds : t.lines.code + t.lines.comment + t.lines.blank = (infos.map (·.lines)).sum
  functions : t.functions = listed.length
  largestFiles : Leads Longer (infos.map fun f => (f.path, f.lines)) t.largestFiles
  mostComplex : Leads MoreComplex listed t.mostComplex

variable {files : List ClassifiedFile} {functions : List Function} {entities : EntityCounts}
  {most : Option Int}

/-- The sizes that statistics show are those that the infos name. -/
theorem map_sizeOf (h : ∀ f ∈ files, f.2.lines = (Text.lines f.1.content.toList).length) :
    files.map sizeOf = (files.map (·.2)).map fun f => (f.path, f.lines) := by
  rw [List.map_map]
  refine List.map_congr_left fun f hf => ?_
  rw [sizeOf, LineCounts.total_ofText, ← h f hf]
  rfl

/-- **Statistics.** They agree with the infos of the files, as long as these know the lines of their
files. -/
theorem Statistics.of_agrees
    (h : ∀ f ∈ files, f.2.lines = (Text.lines f.1.content.toList).length) :
    (Statistics.of most files functions entities).Agrees (files.map (·.2)) functions := by
  have hsizes := map_sizeOf h
  have hlanguages : files.map (·.2.language) = (files.map (·.2)).map FileInfo.language := by
    rw [List.map_map]
    rfl
  have hlines : (Statistics.of most files functions entities).lines.total =
      ((files.map (·.2)).map FileInfo.lines).sum := by
    have htotals := congrArg (List.map Prod.snd) hsizes
    rw [List.map_map, List.map_map] at htotals
    rw [Statistics.of, LineCounts.total_sum, List.map_map]
    exact congrArg List.sum htotals
  refine ⟨(List.length_map _).symm, ?_, fun language n => ?_, hlines, hlines, rfl, ?_, ?_⟩
  · rw [Statistics.of, sum_tally, List.length_map, List.length_map]
  · rw [Statistics.of, mem_tally, hlanguages, count_map_eq_countP]
  · rw [Statistics.of, sizes_eq, hsizes, longerFirst_eq]
    exact (leads_best compareSizes most _).of_iff longer_iff
  · rw [Statistics.of, moreComplexFirst_eq]
    exact (leads_best compareFunctions most _).of_iff moreComplex_iff

end Metrics

/-! ## Analyses -/

namespace Survey

open Extract (Faults)

/-- What an analysis knows of its files are their infos. -/
theorem Surveyor.map_classified (s : Surveyor) (files : List SourceFile) :
    (s.classified files).map (·.2) = files.map s.infoOf := by
  simp [Surveyor.classified]

/-- **Counts.** In every analysis, whatever the settings and the faults, statistics count the files
that are given, and what they count agrees with what the analysis lists. They show as many files and
functions as the settings say, unless that is a negative number. -/
theorem Surveyor.analyze_counts {s : Surveyor} {files : List SourceFile} {faults : Faults}
    {a : Analysis} (h : s.analyze files faults = .ok a) :
    a.statistics.files = files.length ∧ a.statistics.Agrees a.files a.functions ∧
      a.statistics.entities = {
        classes := (a.entities .classes).length
        components := (a.entities .components).length
        routes := (a.entities .routes).length } ∧
      ∀ n : Nat, s.shown = some (n : Int) →
        a.statistics.largestFiles.length = min n a.files.length ∧
        a.statistics.mostComplex.length = min n a.functions.length := by
  obtain ⟨-, x, report, quality, -, -, -, rfl⟩ := Surveyor.analyze_eq_ok_iff.mp h
  have hlines : ∀ f ∈ s.classified files,
      f.2.lines = (Text.lines f.1.content.toList).length := by
    intro f hf
    obtain ⟨file, -, rfl⟩ := List.mem_map.mp hf
    rfl
  have hfunctions := s.assembled_functions x faults files report quality
  refine ⟨?_, ?_, rfl, fun n hn => ?_⟩
  · exact List.length_map _
  · have hagrees : (s.assembled x faults files report quality).statistics.Agrees
        ((s.classified files).map (·.2)) (s.functionsOf x faults files) :=
      Metrics.Statistics.of_agrees hlines
    rw [s.map_classified] at hagrees
    rw [Analysis.functions, hfunctions]
    exact hagrees
  · rw [Analysis.functions, hfunctions]
    simp only [Surveyor.assembled, Metrics.Statistics.of, hn, Metrics.length_best,
      List.length_mergeSort, Metrics.sizes_eq, List.length_map, Surveyor.classified, and_self]

/-- Two languages, two kinds of line ends, and lines of every kind, under the default settings. -/
theorem Surveyor.analyze_counts_standard :
    let files : List SourceFile := [
      { path := "src/a.ts", content := "// adds\r\nfunction f(a) { return a ? g(a) : 1 }\n\n" },
      { path := "b.py", content := "# nothing\n" },
      { path := "src/b.ts", content := "function g(a) { return a }" }]
    ∃ s a, Surveyor.ofSettings [] none = .ok s ∧ s.analyze files = .ok a ∧
      s.shown = some 10 ∧ a.statistics.files = 3 ∧ a.statistics.Agrees a.files a.functions ∧
      a.statistics.entities = {
        classes := (a.entities .classes).length
        components := (a.entities .components).length
        routes := (a.entities .routes).length } ∧
      a.statistics.largestFiles.length = 3 ∧
      a.statistics.mostComplex.length = min 10 a.functions.length := by
  intro files
  have h : ((Surveyor.ofSettings [] none).map fun s => (s.usable, s.shown)).toOption =
      some (true, some 10) := by
    decide +kernel
  obtain ⟨s, hs, hsee⟩ := exists_eq_ok_of_map h
  obtain ⟨husable, hshown⟩ := Prod.mk.inj hsee
  obtain ⟨a, ha⟩ := (s.usable_iff.mp husable).analyze_ok files []
  obtain ⟨hfiles, hagrees, hentities, hlengths⟩ := Surveyor.analyze_counts ha
  obtain ⟨hlargest, hcomplex⟩ := hlengths 10 hshown
  rw [← hagrees.files, hfiles] at hlargest
  exact ⟨s, a, hs, ha, hshown, hfiles, hagrees, hentities, hlargest, hcomplex⟩

end Survey

end CodeSurvey
