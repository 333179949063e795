import CodeSurvey.Proofs.Attempts

/-!
# Failures stay where they are

A component that fails in a file leaves one problem behind and is empty there. This module says what
becomes of everything else.

- `Context.entitiesAfter_failing`: kinds that read one that fails.
- `Surveyor.surveyOf_isolated`: what failures leave of a file.
- `Surveyor.analyze_isolates`: what they leave of a whole analysis.
-/

namespace CodeSurvey

namespace Extract

/-! ## Kinds that are taken to be empty -/

/-- A table in which some kinds have been discarded before anything was found. -/
def Kept.without (gone : List Kind) : Kept :=
  gone.foldr (fun k kept => kept.put k []) Kept.nothing

theorem Kept.without_apply (gone : List Kind) (k : Kind) :
    Kept.without gone k = if k ∈ gone then some [] else none := by
  induction gone with
  | nil => rfl
  | cons j rest ih =>
    by_cases hjk : j = k
    · subst hjk
      simp [Kept.without]
    · have hrest : Kept.without (j :: rest) k = Kept.without rest k := Kept.put_of_ne _ _ hjk
      rw [hrest, ih]
      simp [Ne.symm hjk]

/-- The entities that a kind has where some kinds are known to be empty. -/
def Context.entitiesAfter (c : Context) (gone : List Kind) (k : Kind) :
    Except Failure (List k.Entity) :=
  ((c.results k).answer (Kept.without gone)).1

/-- A kind that does not fail is what it is without any faults but with the kinds that fail empty. -/
theorem Context.entitiesAfter_failing {c : Context} {k : Kind} (hk : c.fails k = false) :
    ({ c with faults := [] } : Context).entitiesAfter (Kind.all.filter c.fails) k =
      .ok (c.left c.fails k) := by
  have hfails (j : Kind) (hj : c.fails j = false) :
      ({ c with faults := [] } : Context).failure? j = none :=
    Context.failure?_without_faults (by simpa [Context.fails] using hj)
  have happly (j : Kind) : Kept.without (Kind.all.filter c.fails) j =
      if c.fails j = true then some [] else none := by
    simp [Kept.without_apply, Kind.mem_all]
  -- The table that knows the failing kinds to be empty is one that a run without faults may start
  -- from: nothing fails there, and all that is gone is known.
  have hconsistent : ({ c with faults := [] } : Context).Consistent c.fails
      (Kept.without (Kind.all.filter c.fails)) := by
    refine ⟨fun j entities hj => ?_, fun j hj => ?_, fun j hj => .inl (by simp [happly, hj])⟩
    · rw [happly] at hj
      split at hj
      · rename_i hfail
        rw [← Option.some.inj hj]
        exact (Context.left_of_fails hfail).symm
      · contradiction
    · cases hcj : c.fails j with
      | true => rfl
      | false => simp [Context.fails, hfails j hcj] at hj
  have hanswers := hconsistent.answers k fun j _ => by
    cases hcj : c.fails j with
    | true => exact .inl (by simp [happly, hcj])
    | false => exact .inr (by simp [Context.fails, hfails j hcj])
  obtain ⟨after, -, hanswer⟩ := hanswers.eq_left (.inr (by simp [Context.fails, hfails k hk]))
  unfold Context.entitiesAfter
  rw [hanswer]
  rfl

end Extract

namespace Survey

open Extract (Context Failure Kept Faults Extractors)

/-! ## What is left of a file -/

/-- A kind is undisturbed by faults if neither it nor a kind that it reads breaks down. -/
def undisturbed (faults : Faults) (k : Kind) : Prop :=
  ∀ j ∈ k :: k.reads, faults.lookup j.name = none

/-- A kind that is undisturbed is as if nothing broke down. -/
theorem Surveyor.surveyOf_undisturbed (s : Surveyor) (x : Extractors) {faults : Faults}
    (file : SourceFile) {k : Kind} (h : undisturbed faults k) :
    (s.surveyOf x faults file).entities k = (s.surveyOf x [] file).entities k := by
  have hfails (j : Kind) (hj : faults.lookup j.name = none) :
      (s.contextOf x faults file).fails j = (s.contextOf x [] file).fails j := by
    unfold Context.fails Context.failure? Surveyor.contextOf
    simp only [hj, List.lookup_nil]
  rw [(s.surveyOf_spec x faults file).1, (s.surveyOf_spec x [] file).1]
  exact x.entitiesWithout_undisturbed _ (hfails k (h k (List.mem_cons_self)))
    fun j hj => hfails j (h j (List.mem_cons_of_mem _ hj))

/-- What is left of the survey of a file when some components fail. -/
structure FileIsolated (s : Surveyor) (x : Extractors) (faults : Faults) (file : SourceFile) :
    Prop where
  /-- Each failing component that applies to the file is noted, once, and no other is. -/
  problems : (s.surveyOf x faults file).problems = s.problemsDue x faults file
  failed : ∀ k, (s.contextOf x faults file).fails k = true → (s.surveyOf x faults file).entities k = []
  undisturbed : ∀ k, undisturbed faults k →
    (s.surveyOf x faults file).entities k = (s.surveyOf x [] file).entities k
  /-- A kind that does not fail has the entities that it has without any faults when those that do
  fail are known to be empty. -/
  disturbed : ∀ k, (s.contextOf x faults file).fails k = false →
    (s.contextOf x [] file).entitiesAfter (Kind.all.filter (s.contextOf x faults file).fails) k =
      .ok ((s.surveyOf x faults file).entities k)
  environment : faults.lookup "env" = none →
    (s.surveyOf x faults file).usages = (s.surveyOf x [] file).usages ∧
      (s.surveyOf x faults file).declared = (s.surveyOf x [] file).declared
  findings : faults.lookup "security" = none →
    (s.surveyOf x faults file).findings = (s.surveyOf x [] file).findings

/-- **Isolation in a file.** -/
theorem Surveyor.surveyOf_isolated (s : Surveyor) (x : Extractors) (faults : Faults)
    (file : SourceFile) : FileIsolated s x faults file where
  problems := (s.surveyOf_spec x faults file).2
  failed k hk := by
    rw [(s.surveyOf_spec x faults file).1]
    exact Context.left_of_fails hk
  undisturbed k hk := s.surveyOf_undisturbed x file hk
  disturbed k hk := by
    have hcontext : s.contextOf x [] file = { s.contextOf x faults file with faults := [] } := rfl
    rw [(s.surveyOf_spec x faults file).1, hcontext]
    exact Context.entitiesAfter_failing hk
  environment h := by
    rw [s.surveyOf_usages, s.surveyOf_usages, s.surveyOf_declared, s.surveyOf_declared, h]
    exact ⟨rfl, rfl⟩
  findings h := by
    rw [s.surveyOf_findings, s.surveyOf_findings, h]
    rfl

/-! ## Whole analyses -/

/-- What is left of a whole analysis when some components fail in its files. -/
structure Isolated (s : Surveyor) (files : List SourceFile) (faults : Faults)
    (whole left : Analysis) : Prop where
  /-- The analysis is put together from what the failures leave of each file. -/
  surveys : ∃ x, s.extractors = .ok x ∧ (∀ file, FileIsolated s x faults file) ∧
    left.problems = files.flatMap (s.problemsDue x faults) ++ dependencyProblem faults ∧
    left.functions = s.functionsOf x faults files ∧
    ∀ k, k ≠ .functions →
      left.entities k = files.flatMap fun file => (s.surveyOf x faults file).entities k
  undisturbed : ∀ k, undisturbed faults k → left.entities k = whole.entities k
  dependencies : left.dependencies =
    if (faults.lookup "dependencies").isSome then {} else whole.dependencies
  environment : faults.lookup "env" = none → left.environment = whole.environment
  security : faults.lookup "security" = none → left.security = whole.security
  configFiles : left.configFiles = whole.configFiles
  architecture : left.architecture = whole.architecture

/-- Faults elsewhere leave the findings as they are. -/
theorem Surveyor.findingsOf_undisturbed (s : Surveyor) (x : Extractors) {faults : Faults}
    (files : List SourceFile) (h : faults.lookup "security" = none) :
    s.findingsOf x faults files = s.findingsOf x [] files := by
  unfold Surveyor.findingsOf
  simp only [(s.surveyOf_isolated x faults _).findings h]

/-- **Isolation of failures.** Whatever components fail, an analysis is reached: always if the
settings can be used, and wherever it is reached without failures. Failures leave one problem for
each component and file, in order, and change only what is found by these components and by those
that read them. -/
theorem Surveyor.analyze_isolates (s : Surveyor) (files : List SourceFile) (faults : Faults) :
    (s.Usable → ∃ left, s.analyze files faults = .ok left) ∧
      ∀ whole, s.analyze files = .ok whole →
        ∃ left, s.analyze files faults = .ok left ∧ Isolated s files faults whole left := by
  refine ⟨fun h => h.analyze_ok files faults, fun whole hwhole => ?_⟩
  obtain ⟨hcategories, x, report, quality, hx, hreport, hquality, rfl⟩ :=
    Surveyor.analyze_eq_ok_iff.mp hwhole
  -- Without findings nothing is weighed, so no fault asks for more of the settings.
  have hfindings : s.findingsOf x faults files = [] ∨ ∃ weights, s.weights = .ok weights := by
    rcases hsecurity : faults.lookup "security" with _ | message
    · rw [s.findingsOf_undisturbed x files hsecurity]
      exact (ofFindings_ok_iff ..).mp ⟨report, hreport⟩
    · refine .inl ?_
      simp [Surveyor.findingsOf, s.surveyOf_findings x faults, hsecurity]
  obtain ⟨left, hleft⟩ := (s.analyze_ok_iff files faults).mpr
    ⟨(s.checkCategories_ok_iff files).mp hcategories, x, hx, hfindings,
      (score_ok_iff ..).mp ⟨quality, hquality⟩⟩
  refine ⟨left, hleft, ?_⟩
  obtain ⟨-, x', report', quality', hx', hreport', -, rfl⟩ := Surveyor.analyze_eq_ok_iff.mp hleft
  obtain rfl : x = x' := Except.ok.inj (hx.symm.trans hx')
  have hfile := s.surveyOf_isolated x faults
  refine ⟨⟨x, hx, hfile, ?_, s.assembled_functions .., fun k hk => s.assembled_entities _ _ _ _ _ hk⟩,
    fun k hk => ?_, ?_, fun h => ?_, fun h => ?_, rfl, rfl⟩
  · simp only [Surveyor.assembled, List.flatMap_map, (hfile _).problems]
  · by_cases hfunctions : k = .functions
    · subst hfunctions
      rw [s.assembled_functions, s.assembled_functions]
      simp only [Surveyor.functionsOf, (hfile _).undisturbed _ hk]
    · rw [s.assembled_entities _ _ _ _ _ hfunctions, s.assembled_entities _ _ _ _ _ hfunctions]
      simp only [(hfile _).undisturbed k hk]
  · rfl
  · have hsurvey := fun file => (hfile file).environment h
    have hdeclare : declareNext (s.surveyOf x faults) = declareNext (s.surveyOf x []) := by
      funext acc file
      simp only [declareNext, (hsurvey file).2]
    simp only [Surveyor.assembled, declarationsOf_zip_map, List.flatMap_map, (hsurvey _).1,
      hdeclare]
  · rw [Surveyor.reportOf, s.findingsOf_undisturbed x files h] at hreport'
    exact Except.ok.inj (hreport'.symm.trans hreport)

/-- Two files, of which one has a function and the other none: only the former is told about. -/
theorem Surveyor.analyze_isolates_standard :
    let files : List SourceFile := [
      { path := "src/a.ts", content := "function f() {}" },
      { path := "README.md", content := "text" }]
    let faults : Faults := [("functions", "broken")]
    ∃ s whole left, Surveyor.ofSettings [] none = .ok s ∧ s.analyze files = .ok whole ∧
      s.analyze files faults = .ok left ∧ Isolated s files faults whole left := by
  intro files faults
  obtain ⟨s, hs, husable⟩ := standard_usable
  obtain ⟨whole, hwhole⟩ := husable.analyze_ok files []
  obtain ⟨left, hleft, hisolated⟩ := (s.analyze_isolates files faults).2 whole hwhole
  exact ⟨s, whole, left, hs, hwhole, hleft, hisolated⟩

end Survey

end CodeSurvey
