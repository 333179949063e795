import CodeSurvey.Proofs.Assembly
import CodeSurvey.Proofs.KeptResults

/-!
# Attempts

All kinds of a file are attempted in order. A kind that fails is noted once and is empty for those
that come later, so the table ends up with exactly what is left of the file.

- `Context.attempt_spec`: what one attempt does.
- `attemptAll_run`: the kinds of one file, attempted in order.
- `Surveyor.surveyOf_spec`: the entities and problems that a file contributes.
- `Surveyor.surveyOf_entities`: the entities of a kind that does not fail.
-/

namespace CodeSurvey

namespace Extract

/-! ## One attempt -/

/-- An attempt answers like a request, but a kind that fails is empty from then on. -/
theorem Context.run_attempt (c : Context) (k : Kind) (kept : Kept) :
    (c.attempt k).run kept = match (c.results k).answer kept with
      | (.ok entities, after) => (.ok entities, after)
      | (.error e, after) => (.error e, after.put k []) := by
  unfold Context.attempt Step.answer
  rw [StateT.run_bind]
  rcases (ExceptT.run (c.results k)).run kept with ⟨_ | _, _⟩ <;> rfl

/-- The kinds that fail are taken to be empty. -/
theorem Context.left_of_fails {c : Context} {k : Kind} (h : c.fails k = true) :
    c.left c.fails k = [] := by
  unfold Context.left
  rw [Extractors.entitiesWithout_eq, h]
  rfl

/-- A table is consistent with the failures of a file if it holds nothing wrong. -/
theorem Context.consistent_of_holds {c : Context} {kept : Kept}
    (h : kept.Holds (c.left c.fails)) : c.Consistent c.fails kept :=
  ⟨h, fun _ hk => hk, fun _ hk => .inr hk⟩

/-- **One attempt.** If the kinds that it reads are known, an attempt tells whether the kind fails.
It leaves a right table that knows the kind and nothing new about other kinds that fail. -/
theorem Context.attempt_spec {c : Context} {kept : Kept} (h : kept.Holds (c.left c.fails))
    {k : Kind} (hreads : ∀ j ∈ k.reads, (kept j).isSome = true)
    (hfresh : c.fails k = true → kept k = none) :
    ∃ result after, (c.attempt k).run kept = (result, after) ∧
      (match result with | .ok _ => none | .error e => some e) = c.failure? k ∧
      after.Holds (c.left c.fails) ∧
      (∀ j, (kept j).isSome = true → (after j).isSome = true) ∧ (after k).isSome = true ∧
      ∀ j, j ≠ k → c.fails j = true → after j = kept j := by
  have hconsistent := Context.consistent_of_holds h
  obtain ⟨after, hanswer, hadvances, hknown⟩ :=
    hconsistent.answers k fun j hj => .inl (hreads j hj)
  rw [c.run_attempt, hanswer]
  cases hfailure : c.failure? k with
  | none =>
    have hdue : c.due c.fails kept k = .ok (c.left c.fails k) := by
      unfold Context.due
      rw [hfailure]
      cases kept k <;> rfl
    rw [hdue]
    exact ⟨_, after, rfl, rfl, hadvances.holds, hadvances.known, hknown _ hdue,
      fun j _ hj => hadvances.failing j hj⟩
  | some e =>
    have hfails : c.fails k = true := by simp [Context.fails, hfailure]
    have hdue : c.due c.fails kept k = .error e := by
      unfold Context.due
      rw [hfailure, hfresh hfails]
    rw [hdue]
    -- A kind that fails is noted as empty, which is what is left of it.
    refine ⟨_, after.put k [], rfl, rfl, ?_, fun j hj => ?_, by simp, fun j hne hj => ?_⟩
    · have hput := hadvances.holds.put k
      rwa [Context.left_of_fails hfails] at hput
    · by_cases hkj : k = j
      · subst hkj
        simp
      · rw [Kept.put_of_ne after _ hkj]
        exact hadvances.known j hj
    · rw [Kept.put_of_ne after _ (Ne.symm hne)]
      exact hadvances.failing j hj

/-! ## All kinds in order -/

/-- Each kind comes after those that it reads, and no kind comes twice. -/
def readsFirst (done : List Kind) : List Kind → Bool
  | [] => true
  | k :: rest => !done.contains k && k.reads.all done.contains && readsFirst (k :: done) rest

/-- The order in which kinds are worked out. -/
theorem readsFirst_all : readsFirst [] Kind.all = true := by decide

end Extract

namespace Survey

open Extract (Context Failure Kept Faults Extractors)

/-- The failures among kinds, in order. -/
def failuresAmong (c : Context) (kinds : List Kind) : List (Kind × Failure) :=
  kinds.filterMap fun k => (c.failure? k).map fun e => (k, e)

/-- **All attempts.** Kinds that are attempted in order tell each failure once, and leave a table
that knows all of them. The induction is on the kinds to come: those that are done are known, and
nothing is known of those to come that fail. -/
theorem attemptAll_run (c : Context) (kinds done : List Kind)
    (horder : Extract.readsFirst done kinds = true) (kept : Kept)
    (hkept : kept.Holds (c.left c.fails)) (hdone : ∀ k ∈ done, (kept k).isSome = true)
    (hfresh : ∀ k, k ∉ done → c.fails k = true → kept k = none) :
    ∃ after, (attemptAll c kinds).run kept = (failuresAmong c kinds, after) ∧
      after.Holds (c.left c.fails) ∧ ∀ k, k ∈ done ∨ k ∈ kinds → (after k).isSome = true := by
  induction kinds generalizing done kept with
  | nil => exact ⟨kept, rfl, hkept, fun k hk => hdone k (by simpa using hk)⟩
  | cons k rest ih =>
    simp only [Extract.readsFirst, Bool.and_eq_true, Bool.not_eq_true', List.all_eq_true,
      List.contains_iff_mem] at horder
    obtain ⟨⟨hnew, hreads⟩, horder⟩ := horder
    have hnew : k ∉ done := by simpa using hnew
    obtain ⟨result, middle, hattempt, hresult, hmiddle, hknown, hk, hothers⟩ :=
      Context.attempt_spec hkept (fun j hj => hdone j (by simpa using hreads j hj)) (hfresh k hnew)
    have hdone' : ∀ j ∈ k :: done, (middle j).isSome = true := by
      intro j hj
      rcases List.mem_cons.mp hj with rfl | hj
      · exact hk
      · exact hknown j (hdone j hj)
    -- What fails and is still to come is no kind of the attempt just made, so nothing has been put
    -- there.
    have hfresh' : ∀ j, j ∉ k :: done → c.fails j = true → middle j = none := by
      intro j hj hfails
      rw [List.mem_cons, not_or] at hj
      rw [hothers j hj.1 hfails]
      exact hfresh j hj.2 hfails
    obtain ⟨after, hrest, hafter, hall⟩ := ih (k :: done) horder middle hmiddle hdone' hfresh'
    refine ⟨after, ?_, hafter, fun j hj => hall j ?_⟩
    · simp only [attemptAll, StateT.run_bind, hattempt, failuresAmong, List.filterMap_cons,
        ← hresult]
      change (do
        let p ← (attemptAll c rest).run middle
        _) = _
      rw [hrest]
      cases result <;> rfl
    · simp only [List.mem_cons] at hj ⊢
      rcases hj with hj | rfl | hj
      · exact .inl (.inr hj)
      · exact .inl (.inl rfl)
      · exact .inr hj

/-! ## One file -/

/-- The state in which the kinds of a file are worked out. -/
def Surveyor.contextOf (s : Surveyor) (x : Extractors) (faults : Faults) (file : SourceFile) :
    Context :=
  { extractors := x, view := Extract.View.ofFile (s.infoOf file) file.content.toList, faults }

/-- Whether a file is searched for environment variables, declared or used. -/
def Surveyor.seeksEnvironment (s : Surveyor) (info : FileInfo) : Bool :=
  info.language == "dotenv" || s.environmentLanguages.contains info.language

/-- The problems of a file: one for each component that applies to it and fails there. First come
the kinds, in order, then the environment, then the findings. -/
def Surveyor.problemsDue (s : Surveyor) (x : Extractors) (faults : Faults) (file : SourceFile) :
    List Problem :=
  let info := s.infoOf file
  let ofKind (k : Kind) : Option Problem :=
    ((s.contextOf x faults file).failure? k).map fun e => ⟨info.path, k.name, e.message⟩
  let ofComponent (component : String) (applies : Bool) : Option Problem :=
    if applies then (faults.lookup component).map fun message => ⟨info.path, component, message⟩
    else none
  Kind.all.filterMap ofKind ++ (ofComponent "env" (s.seeksEnvironment info)).toList
    ++ (ofComponent "security" info.structural).toList

/-- A component that breaks down leaves one problem, any other none. -/
theorem guarded_problems (faults : Faults) (component filePath : String) (missing : α)
    (run : Unit → α) :
    (guarded faults component filePath missing run).2 =
      ((faults.lookup component).map fun message => ⟨filePath, component, message⟩).toList := by
  unfold guarded
  cases faults.lookup component <;> rfl

/-- What a file contributes, once all kinds have been attempted. -/
theorem Surveyor.surveyOf_eq {s : Surveyor} {x : Extractors} {faults : Faults} {file : SourceFile}
    {failed : List (Kind × Failure)} {kept : Kept}
    (h : (attemptAll (s.contextOf x faults file) Kind.all).run Kept.nothing = (failed, kept)) :
    let info := s.infoOf file
    let content := file.content.toList
    let declared := if info.language == "dotenv" then
        guarded faults "env" info.path none fun _ => some (Environment.declaredNames content)
      else (none, [])
    let usages := if info.language != "dotenv" && s.environmentLanguages.contains info.language then
        guarded faults "env" info.path [] fun _ => Environment.usages info.path content
      else ([], [])
    let findings := if info.structural then
        guarded faults "security" info.path [] fun _ => s.scanner.scan info.path content
      else ([], [])
    s.surveyOf x faults file =
      { entities := kept.entities
        usages := usages.1
        declared := declared.1
        findings := findings.1
        problems := failed.map (fun e => ⟨info.path, e.1.name, e.2.message⟩)
          ++ declared.2 ++ usages.2 ++ findings.2 } := by
  unfold Surveyor.contextOf at h
  simp only [Surveyor.surveyOf, surveyFile, h]

/-- The entities of a file are those that are left when the kinds that fail are empty, and each
failure is noted once. -/
theorem Surveyor.surveyOf_spec (s : Surveyor) (x : Extractors) (faults : Faults)
    (file : SourceFile) :
    (s.surveyOf x faults file).entities =
        (s.contextOf x faults file).left (s.contextOf x faults file).fails ∧
      (s.surveyOf x faults file).problems = s.problemsDue x faults file := by
  obtain ⟨after, hrun, hholds, hknown⟩ :=
    attemptAll_run (s.contextOf x faults file) Kind.all [] Extract.readsFirst_all Kept.nothing
      (fun _ _ h => by simp [Kept.nothing] at h) (fun _ h => by simp at h) (fun _ _ _ => rfl)
  rw [Surveyor.surveyOf_eq hrun]
  constructor
  · funext k
    obtain ⟨entities, hk⟩ := Option.isSome_iff_exists.mp (hknown k (.inr (Kind.mem_all k)))
    simp only [Kept.entities, hk]
    exact hholds k entities hk
  · have hkinds : (failuresAmong (s.contextOf x faults file) Kind.all).map
        (fun e => (⟨(s.infoOf file).path, e.1.name, e.2.message⟩ : Problem)) =
        Kind.all.filterMap fun k => ((s.contextOf x faults file).failure? k).map fun e =>
          ⟨(s.infoOf file).path, k.name, e.message⟩ := by
      simp [failuresAmong, List.map_filterMap, Option.map_map, Function.comp_def]
    -- A file declares or uses variables, never both, so the environment leaves one problem at most.
    simp only [hkinds, Surveyor.problemsDue, Surveyor.seeksEnvironment, apply_ite Prod.snd,
      guarded_problems, List.append_assoc]
    by_cases hdotenv : (s.infoOf file).language = "dotenv" <;>
      by_cases hsearched : (s.infoOf file).language ∈ s.environmentLanguages <;>
      by_cases hstructural : (s.infoOf file).structural = true <;>
      simp [hdotenv, hsearched, hstructural]

/-- Without faults the entities of a kind are those that are found in the file, if the settings let
their code be kept. -/
theorem Surveyor.surveyOf_entities (s : Surveyor) (x : Extractors) (file : SourceFile) {k : Kind}
    (happlies : x.appliesTo (s.contextOf x [] file).view k = true)
    (hkept : x.unkept? (s.contextOf x [] file).view k = none) :
    (s.surveyOf x [] file).entities k =
      x.found (s.contextOf x [] file).view (s.surveyOf x [] file).entities k := by
  have happlies : (s.contextOf x [] file).extractors.appliesTo (s.contextOf x [] file).view k =
      true := happlies
  have hworks : (s.contextOf x [] file).fails k = false := by
    rw [Context.fails, Context.failure?, if_pos happlies]
    exact congrArg Option.isSome hkept
  rw [(s.surveyOf_spec x [] file).1, Context.left, Extractors.entitiesWithout_eq, hworks, happlies]
  rfl

/-- The variables that a file uses are sought unless it declares variables or the component breaks
down. -/
theorem Surveyor.surveyOf_usages (s : Surveyor) (x : Extractors) (faults : Faults)
    (file : SourceFile) :
    (s.surveyOf x faults file).usages =
      if (s.infoOf file).language != "dotenv" &&
          s.environmentLanguages.contains (s.infoOf file).language &&
          (faults.lookup "env").isNone
      then Environment.usages file.path file.content.toList else [] := by
  rcases h : (attemptAll (s.contextOf x faults file) Kind.all).run Kept.nothing with ⟨failed, kept⟩
  rw [Surveyor.surveyOf_eq h]
  simp only [guarded, apply_ite Prod.fst]
  cases faults.lookup "env" with
  | none => simp [Surveyor.infoOf, Files.Classifier.classify]
  | some message => simp

/-- The variables that a file declares are sought unless the component breaks down. -/
theorem Surveyor.surveyOf_declared (s : Surveyor) (x : Extractors) (faults : Faults)
    (file : SourceFile) :
    (s.surveyOf x faults file).declared =
      if (s.infoOf file).language == "dotenv" && (faults.lookup "env").isNone
      then some (Environment.declaredNames file.content.toList) else none := by
  rcases h : (attemptAll (s.contextOf x faults file) Kind.all).run Kept.nothing with ⟨failed, kept⟩
  rw [Surveyor.surveyOf_eq h]
  simp only [guarded, apply_ite Prod.fst]
  cases faults.lookup "env" <;> simp

/-- Findings are sought unless the component breaks down. -/
theorem Surveyor.surveyOf_findings (s : Surveyor) (x : Extractors) (faults : Faults)
    (file : SourceFile) :
    (s.surveyOf x faults file).findings =
      if (s.infoOf file).structural && (faults.lookup "security").isNone
      then s.scanner.scan file.path file.content.toList else [] := by
  rcases h : (attemptAll (s.contextOf x faults file) Kind.all).run Kept.nothing with ⟨failed, kept⟩
  rw [Surveyor.surveyOf_eq h]
  simp only [guarded, apply_ite Prod.fst]
  cases faults.lookup "security" with
  | none => simp [Surveyor.infoOf, Files.Classifier.classify]
  | some message => simp

end Survey

end CodeSurvey
