import CodeSurvey.Proofs.Attempts
import CodeSurvey.Proofs.Recoding
import CodeSurvey.Proofs.SharedSections

/-!
# Limits of code

Settings may say how much code of each kind is kept. Nothing else depends on that: two analyses
under settings that differ in these limits are the same but for the code in their records.

- `Surveyor.analyze_recode`: an analysis under limits is an analysis without them, cut.
- `Settings.SameButCode`: settings that differ in the limits of code at most.
- `analysisOf_code_limits`: what two analyses under such settings have in common.
-/

namespace CodeSurvey

/-! ## Functions with other code -/

namespace Metrics

theorem averageComplexity_recode (g : Recoding) (functions : List Function) :
    averageComplexity (functions.map (Function.recode g)) = averageComplexity functions := by
  simp only [averageComplexity, List.isEmpty_map, List.foldl_map, List.length_map]
  rfl

/-- Reports on functions do not look at their code. -/
theorem complexityReport_recode (g : Recoding) (t : Thresholds) (functions : List Function)
    (files : List ClassifiedFile) :
    ComplexityReport.of t (functions.map (Function.recode g)) files =
      ComplexityReport.of t functions files := by
  simp only [ComplexityReport.of, averageComplexity_recode, List.filter_map, List.map_map]
  rfl

theorem best_map (f : α → β) (most : Option Int) (xs : List α) :
    best most (xs.map f) = (best most xs).map f := by
  cases most with
  | none => rfl
  | some n => simp only [best, Text.upTo, List.length_map, List.map_take]

/-- Statistics with functions that hold other code. -/
def Statistics.recode (g : Recoding) (s : Statistics) : Statistics :=
  { s with mostComplex := s.mostComplex.map (Function.recode g) }

/-- Functions are ranked by everything but their code. -/
theorem statistics_recode (g : Recoding) (most : Option Int) (files : List ClassifiedFile)
    (functions : List Function) (entities : EntityCounts) :
    Statistics.of most files (functions.map (Function.recode g)) entities =
      (Statistics.of most files functions entities).recode g := by
  have hcompare : ∀ f ∈ functions, ∀ f' ∈ functions,
      moreComplexFirst f f' = moreComplexFirst (f.recode g) (f'.recode g) := fun _ _ _ _ => rfl
  have hsorted := (List.map_mergeSort hcompare).symm
  simp only [Statistics.of, Statistics.recode, List.length_map, hsorted, best_map]

end Metrics

namespace Survey

open Extract (Extractors Faults Kept Limits)

/-- Callers are found by names. -/
theorem withCallers_recode (g : Recoding) (functions : List Function) :
    withCallers (functions.map (Function.recode g)) =
      (withCallers functions).map (Function.recode g) := by
  have hcallers (f : Function) :
      callersOf (functions.map (Function.recode g)) (f.recode g) = callersOf functions f := by
    simp only [callersOf, List.filter_map, List.map_map]
    rfl
  simp only [withCallers, List.map_map]
  apply List.map_congr_left
  intro f _
  simp only [Function.comp_apply, hcallers]
  rfl

/-! ## Analyses with other code -/

/-- An analysis whose records hold other code. -/
def Analysis.recode (g : Recoding) (a : Analysis) : Analysis :=
  { a with entities := a.entities.recode g, statistics := a.statistics.recode g }

/-- An analysis without any code in its records. -/
def Analysis.withoutCode (a : Analysis) : Analysis :=
  a.recode fun _ _ => ""

/-- The code under the limit for a kind, in all entities of a kind. -/
def Analysis.codes (a : Analysis) (k : Kind) (kind : String) : List String :=
  (((a.entities k).flatMap k.codes).filter (·.1 == kind)).map (·.2)

theorem Analysis.withoutCode_recode (g : Recoding) (a : Analysis) :
    (a.recode g).withoutCode = a.withoutCode := by
  have hentities : (a.entities.recode g).recode (fun _ _ => "") =
      a.entities.recode fun _ _ => "" := by
    funext k
    simp only [Entities.recode, List.map_map, Function.comp_def, Kind.recode_recode]
  simp only [Analysis.withoutCode, Analysis.recode, hentities, Metrics.Statistics.recode,
    List.map_map]
  rfl

theorem Analysis.codes_recode (g : Recoding) (a : Analysis) (k : Kind) (kind : String) :
    (a.recode g).codes k kind = (a.codes k kind).map (g kind) := by
  have hcodes : ((a.entities k).map (k.recode g)).flatMap k.codes =
      ((a.entities k).flatMap k.codes).map fun c => (c.1, g c.1 c.2) := by
    simp only [List.flatMap_map, List.map_flatMap, Kind.codes_recode]
  simp only [Analysis.codes, Analysis.recode, Entities.recode, hcodes, List.filter_map,
    List.map_map]
  apply List.map_congr_left
  intro c hc
  have hkind : c.1 = kind := by simpa using (List.mem_filter.mp hc).2
  simp only [Function.comp_apply, hkind]

/-! ## Analyses under limits -/

section

variable (s : Surveyor) {x : Extractors} {caps : List (String × Int)}
  (hcode : x.limits.code = .ok caps) (faults : Faults)

include hcode

theorem Surveyor.surveyOf_recode (file : SourceFile) :
    s.surveyOf x faults file =
      { s.surveyOf x.uncapped faults file with
        entities := (s.surveyOf x.uncapped faults file).entities.recode x.limits.recoding } := by
  have hentities : (s.surveyOf x faults file).entities =
      (s.surveyOf x.uncapped faults file).entities.recode x.limits.recoding := by
    rw [(s.surveyOf_spec x faults file).1, (s.surveyOf_spec x.uncapped faults file).1]
    exact (s.contextOf x faults file).left_recode hcode
  -- Limits that can be read make no kind fail, whatever they are.
  have hproblems : (s.surveyOf x faults file).problems =
      (s.surveyOf x.uncapped faults file).problems := by
    have hfailure := (s.contextOf x faults file).failure?_uncapped hcode
    rw [(s.surveyOf_spec x faults file).2, (s.surveyOf_spec x.uncapped faults file).2]
    unfold Surveyor.problemsDue
    simp only [← hfailure]
    rfl
  have husages := (s.surveyOf_usages x faults file).trans
    (s.surveyOf_usages x.uncapped faults file).symm
  have hdeclared := (s.surveyOf_declared x faults file).trans
    (s.surveyOf_declared x.uncapped faults file).symm
  have hfindings := (s.surveyOf_findings x faults file).trans
    (s.surveyOf_findings x.uncapped faults file).symm
  cases hsurvey : s.surveyOf x faults file
  simp only [hsurvey] at hentities hproblems husages hdeclared hfindings
  rw [hentities, hproblems, husages, hdeclared, hfindings]

theorem Surveyor.functionsOf_recode (files : List SourceFile) :
    s.functionsOf x faults files =
      (s.functionsOf x.uncapped faults files).map (Function.recode x.limits.recoding) := by
  have hfound : (files.flatMap fun file => (s.surveyOf x faults file).entities .functions) =
      (files.flatMap fun file => (s.surveyOf x.uncapped faults file).entities .functions).map
        (Function.recode x.limits.recoding) := by
    simp only [s.surveyOf_recode hcode, List.map_flatMap]
    rfl
  simp only [Surveyor.functionsOf, hfound]
  cases s.crossReference with
  | true => exact withCallers_recode ..
  | false => rfl

theorem Surveyor.findingsOf_uncapped (files : List SourceFile) :
    s.findingsOf x faults files = s.findingsOf x.uncapped faults files := by
  simp only [Surveyor.findingsOf, s.surveyOf_recode hcode]

/-- The quality is judged by everything but the code. -/
theorem Surveyor.qualityOf_uncapped (files : List SourceFile) :
    s.qualityOf x faults files = s.qualityOf x.uncapped faults files := by
  simp only [Surveyor.qualityOf, s.functionsOf_recode hcode, Metrics.complexityReport_recode]

theorem Surveyor.entities_recode (files : List SourceFile) (report : Security.Report)
    (quality : Int) :
    (s.assembled x faults files report quality).entities =
      (s.assembled x.uncapped faults files report quality).entities.recode x.limits.recoding := by
  funext k
  by_cases hk : k = .functions
  · subst hk
    rw [s.assembled_functions, Entities.recode, s.assembled_functions]
    exact s.functionsOf_recode hcode faults files
  · rw [s.assembled_entities _ _ _ _ _ hk, Entities.recode, s.assembled_entities _ _ _ _ _ hk]
    simp only [s.surveyOf_recode hcode, List.map_flatMap]
    rfl

theorem Surveyor.assembled_recode (files : List SourceFile) (report : Security.Report)
    (quality : Int) :
    s.assembled x faults files report quality =
      (s.assembled x.uncapped faults files report quality).recode x.limits.recoding := by
  have hentities := s.entities_recode hcode faults files report quality
  have hstatistics : (s.assembled x faults files report quality).statistics =
      (s.assembled x.uncapped faults files report quality).statistics.recode x.limits.recoding := by
    simp only [Surveyor.assembled, s.functionsOf_recode hcode, Metrics.statistics_recode, joined,
      s.surveyOf_recode hcode, List.flatMap_map, Entities.recode, List.length_flatMap,
      List.length_map]
  have hproblems : (s.assembled x faults files report quality).problems =
      (s.assembled x.uncapped faults files report quality).problems := by
    simp only [Surveyor.assembled, s.surveyOf_recode hcode, List.flatMap_map]
  have hdeclare : declareNext (s.surveyOf x faults) =
      declareNext (s.surveyOf x.uncapped faults) := by
    funext acc file
    simp only [declareNext, s.surveyOf_recode hcode]
  have henvironment : (s.assembled x faults files report quality).environment =
      (s.assembled x.uncapped faults files report quality).environment := by
    simp only [Surveyor.assembled, declarationsOf_zip_map, hdeclare, s.surveyOf_recode hcode,
      List.flatMap_map]
  -- All other parts are made of the files alone.
  show ({ s.assembled x.uncapped faults files report quality with
    entities := (s.assembled x faults files report quality).entities
    environment := (s.assembled x faults files report quality).environment
    statistics := (s.assembled x faults files report quality).statistics
    problems := (s.assembled x faults files report quality).problems } : Analysis) = _
  rw [hentities, henvironment, hstatistics, hproblems]
  rfl

end

/-- The surveyor with other extractors. -/
def Surveyor.withExtractors (s : Surveyor) (extractors : Except SettingsError Extractors) :
    Surveyor :=
  { s with extractors }

section

variable (s : Surveyor) (e : Except SettingsError Extractors)

theorem Surveyor.surveyOf_withExtractors : (s.withExtractors e).surveyOf = s.surveyOf := by
  funext x faults file
  rcases h : (attemptAll (s.contextOf x faults file) Kind.all).run Kept.nothing with ⟨failed, kept⟩
  have h' : (attemptAll ((s.withExtractors e).contextOf x faults file) Kind.all).run Kept.nothing =
      (failed, kept) := h
  rw [Surveyor.surveyOf_eq h, Surveyor.surveyOf_eq h']
  rfl

theorem Surveyor.functionsOf_withExtractors :
    (s.withExtractors e).functionsOf = s.functionsOf := by
  unfold Surveyor.functionsOf
  rw [s.surveyOf_withExtractors]
  rfl

theorem Surveyor.reportOf_withExtractors : (s.withExtractors e).reportOf = s.reportOf := by
  unfold Surveyor.reportOf Surveyor.findingsOf
  rw [s.surveyOf_withExtractors]
  rfl

theorem Surveyor.qualityOf_withExtractors : (s.withExtractors e).qualityOf = s.qualityOf := by
  unfold Surveyor.qualityOf
  rw [s.functionsOf_withExtractors]
  rfl

theorem Surveyor.assembled_withExtractors : (s.withExtractors e).assembled = s.assembled := by
  unfold Surveyor.assembled
  rw [s.functionsOf_withExtractors, s.surveyOf_withExtractors]
  rfl

/-- What extractors a surveyor holds matters for nothing but which ones are used. -/
theorem Surveyor.analyze_withExtractors (files : List SourceFile) (faults : Faults) :
    (s.withExtractors e).analyze files faults = (do
      s.checkCategories files
      let x ← e
      let report ← s.reportOf x faults files
      let quality ← s.qualityOf x faults files
      pure (s.assembled x faults files report quality)) := by
  rw [Surveyor.analyze_eq, s.reportOf_withExtractors, s.qualityOf_withExtractors,
    s.assembled_withExtractors]
  rfl

end

/-- **An analysis under limits** is an analysis without them, cut. -/
theorem Surveyor.analyze_recode (s : Surveyor) {x : Extractors} {caps : List (String × Int)}
    (hcode : x.limits.code = .ok caps) (files : List SourceFile) (faults : Faults) :
    (s.withExtractors (.ok x)).analyze files faults =
      ((s.withExtractors (.ok x.uncapped)).analyze files faults).map
        (Analysis.recode x.limits.recoding) := by
  have hreport : s.reportOf x faults files = s.reportOf x.uncapped faults files := by
    rw [Surveyor.reportOf, Surveyor.reportOf, s.findingsOf_uncapped hcode]
  rw [s.analyze_withExtractors, s.analyze_withExtractors]
  dsimp only [bind, Except.bind]
  rw [hreport, s.qualityOf_uncapped hcode]
  cases s.checkCategories files with
  | error e => rfl
  | ok u =>
    cases s.reportOf x.uncapped faults files with
    | error e => rfl
    | ok report =>
      cases s.qualityOf x.uncapped faults files with
      | error e => rfl
      | ok quality =>
        exact congrArg Except.ok (s.assembled_recode hcode faults files report quality)

end Survey

/-! ## Settings -/

/-- Settings that differ in the limits of code at most. -/
structure Settings.SameButCode (settings settings' : Settings) : Prop where
  sections : ∀ key, key ≠ "limits" → Value.lookup? key settings = Value.lookup? key settings'
  /-- If the limits differ, they do so in those of code, and both hold a section there. -/
  limits : Value.lookup? "limits" settings = Value.lookup? "limits" settings' ∨
    ∃ entries entries' caps caps' : Settings,
      Value.lookup? "limits" settings = some (.map entries) ∧
      Value.lookup? "limits" settings' = some (.map entries') ∧
      (∀ key, key ≠ "code" → Value.lookup? key entries = Value.lookup? key entries') ∧
      entries.sectionNamed "code" = .ok caps ∧ entries'.sectionNamed "code" = .ok caps'

/-- A user who gives limits of code last changes nothing else. -/
theorem Settings.sameButCode_append {user entries caps : Settings} (caps' : Settings)
    (hentries : Value.lookup? "limits" (merge user) = some (.map entries))
    (hcaps : entries.sectionNamed "code" = .ok caps) :
    (merge user).SameButCode (merge (user ++ [("limits", .map [("code", .map caps')])])) := by
  have hmerge : merge (user ++ [("limits", .map [("code", .map caps')])]) =
      Value.put "limits" (.map (Value.put "code" (.map caps') entries)) (merge user) :=
    merge_append _ hentries
  rw [hmerge]
  constructor
  case sections =>
    intro key hkey
    exact (lookup?_put_of_ne hkey _ _).symm
  case limits =>
    refine .inr ⟨entries, _, caps, caps', hentries, lookup?_put_self .., ?_, hcaps, ?_⟩
    · intro key hkey
      exact (lookup?_put_of_ne hkey _ _).symm
    · rw [Settings.sectionNamed, lookup?_put_self]
      rfl

/-- The limit of code that settings hold for a kind. -/
def Settings.cap? (settings : Settings) (kind : String) : Option Int :=
  (Extract.Limits.ofSettings settings).toOption.bind fun limits =>
    limits.code.toOption.bind (·.lookup kind)

section

variable {settings settings' : Settings} (h : settings.SameButCode settings')

include h

theorem Settings.SameButCode.outside : Settings.SameOutside "limits" settings settings' :=
  h.sections

/-- The limits under such settings are the same but for those of code. -/
theorem Settings.SameButCode.limits_ofSettings :
    Extract.Limits.ofSettings settings = Extract.Limits.ofSettings settings' ∨
      ∃ limits limits' caps caps', Extract.Limits.ofSettings settings = .ok limits ∧
        Extract.Limits.ofSettings settings' = .ok limits' ∧ limits.uncapped = limits'.uncapped ∧
        limits.code = .ok caps ∧ limits'.code = .ok caps' := by
  rcases h.limits with hsame | ⟨entries, entries', caps, caps', hentries, hentries', hothers, hcaps,
    hcaps'⟩
  · left
    simp only [Extract.Limits.ofSettings, Settings.sectionNamed, hsame]
  · right
    have hsection : settings.sectionNamed "limits" = .ok entries := by
      simp only [Settings.sectionNamed, hentries, asSection]
    have hsection' : settings'.sectionNamed "limits" = .ok entries' := by
      simp only [Settings.sectionNamed, hentries', asSection]
    refine ⟨_, _, _, _, by rw [Extract.Limits.ofSettings, hsection]; rfl,
      by rw [Extract.Limits.ofSettings, hsection']; rfl, ?_, congrArg (Except.map _) hcaps,
      congrArg (Except.map _) hcaps'⟩
    simp only [Extract.Limits.uncapped, Settings.int, Settings.bound?,
      hothers _ (show "block_fallback_length" ≠ "code" by decide),
      hothers _ (show "max_block_scan" ≠ "code" by decide),
      hothers _ (show "max_signature_scan" ≠ "code" by decide),
      hothers _ (show "max_type_definition" ≠ "code" by decide),
      hothers _ (show "max_properties" ≠ "code" by decide)]

/-- So are the extractors. -/
theorem Settings.SameButCode.extractors_ofSettings :
    Extract.Extractors.ofSettings settings = Extract.Extractors.ofSettings settings' ∨
      ∃ x x' caps caps', Extract.Extractors.ofSettings settings = .ok x ∧
        Extract.Extractors.ofSettings settings' = .ok x' ∧ x.uncapped = x'.uncapped ∧
        x.limits.code = .ok caps ∧ x'.limits.code = .ok caps' := by
  have hlanguages := h.outside.sectionNamed (show "languages" ≠ "limits" by decide) .get
  have hauth := h.outside.auth
  unfold Extract.Extractors.ofSettings
  rw [hlanguages, hauth]
  rcases h.limits_ofSettings with hsame | ⟨limits, limits', caps, caps', hlimits, hlimits',
    huncapped, hcaps, hcaps'⟩
  · left
    rw [hsame]
  · rw [hlimits, hlimits']
    cases settings'.sectionNamed "languages" with
    | error e => exact .inl rfl
    | ok languages =>
      cases Security.Auth.ofSettings settings' with
      | error e => exact .inl rfl
      | ok auth =>
        refine .inr ⟨_, _, caps, caps', rfl, rfl, ?_, hcaps, hcaps'⟩
        simp only [Extract.Extractors.uncapped, huncapped]

end

namespace Survey

open Extract (Extractors Faults)

/-- Surveyors under such settings differ in their extractors at most. -/
theorem Surveyor.ofSettings_sameButCode {user user' : Settings}
    (h : (merge user).SameButCode (merge user')) (workers : Option Int) :
    Surveyor.ofSettings user' workers = (Surveyor.ofSettings user workers).map fun s =>
      s.withExtractors (Extractors.ofSettings (merge user')) := by
  have hshared := h.outside
  unfold Surveyor.ofSettings
  simp only [hshared.workers, hshared.classifier, hshared.auth, hshared.environment,
    hshared.scanner, hshared.thresholds, hshared.scale, hshared.shown, hshared.categories,
    hshared.weights, hshared "cross_reference" (by decide)]
  split
  · simp only [map_step]
    rfl
  · simp only [map_step]
    rfl

/-- An analysis under other limits of code is made by the same surveyor with other extractors. -/
theorem analysisOf_eq_of_sameButCode {user user' : Settings}
    (h : (merge user).SameButCode (merge user')) (workers : Option Int) (files : List SourceFile)
    (faults : Faults) :
    analysisOf user' workers files faults = (do
      let s ← Surveyor.ofSettings user workers
      (s.withExtractors (Extractors.ofSettings (merge user'))).analyze files faults) := by
  rw [analysisOf, Surveyor.ofSettings_sameButCode h]
  cases Surveyor.ofSettings user workers <;> rfl

/-! ## What limits do to code -/

/-- The first characters of a piece of code. -/
def firstOf (n : Nat) (code : String) : String :=
  String.ofList (code.toList.take n)

/-- The limits that are used are those that the settings hold. -/
theorem cap?_of_ofSettings {settings : Settings} {x : Extractors}
    (hx : Extractors.ofSettings settings = .ok x) (kind : String) :
    settings.cap? kind = x.limits.code.toOption.bind (·.lookup kind) := by
  obtain ⟨limits, hlimits, hrest⟩ := bind_eq_ok.mp hx
  obtain ⟨languages, -, hrest⟩ := bind_eq_ok.mp hrest
  obtain ⟨auth, -, hrest⟩ := bind_eq_ok.mp hrest
  obtain rfl := Except.ok.inj hrest
  rw [Settings.cap?, hlimits]
  rfl

theorem recoding_eq_firstOf {limits : Extract.Limits} {kind : String} {n : Nat} (hn : 0 < n)
    (hcap : limits.code.toOption.bind (·.lookup kind) = some (n : Int)) :
    limits.recoding kind = firstOf n := by
  funext code
  rw [Extract.Limits.recoding, Extract.Limits.keep, hcap, firstOf]
  congr 1
  show (if (n : Int) != 0 && (n : Int) < code.toList.length then _ else _) = _
  split
  · exact Text.upTo_ofNat _ n
  · rename_i hwhole
    have hlength : code.toList.length ≤ n := by
      have hne : (n : Int) ≠ 0 := by omega
      simp only [bne_iff_ne, Bool.and_eq_true, decide_eq_true_eq, not_and] at hwhole
      have hle := hwhole hne
      omega
    exact (List.take_of_length_le hlength).symm

theorem recoding_eq_id {limits : Extract.Limits} {kind : String}
    (hcap : limits.code.toOption.bind (·.lookup kind) = none ∨
      limits.code.toOption.bind (·.lookup kind) = some 0) : limits.recoding kind = id := by
  funext code
  rw [Extract.Limits.recoding, Extract.Limits.keep]
  rcases hcap with hcap | hcap
  · rw [hcap]
    exact String.ofList_toList
  · rw [hcap]
    exact String.ofList_toList

/-! ## Two analyses -/

/-- **Limits of code touch nothing but code.** Analyses under settings that differ in the limits of
code at most are the same once the code is taken out of their records, and where one of the settings
limits a kind and the other does not, the code of this kind is cut to its first characters. -/
theorem analysisOf_code_limits (user user' : Settings) (workers : Option Int)
    (files : List SourceFile) (faults : Faults) (h : (merge user).SameButCode (merge user')) :
    (analysisOf user workers files faults).map Analysis.withoutCode =
      (analysisOf user' workers files faults).map Analysis.withoutCode ∧
    ∀ a b, analysisOf user workers files faults = .ok a →
      analysisOf user' workers files faults = .ok b →
      ∀ (kind : String) (n : Nat), 0 < n → (merge user).cap? kind = some (n : Int) →
        (merge user').cap? kind = none ∨ (merge user').cap? kind = some 0 →
        ∀ k, a.codes k kind = (b.codes k kind).map (firstOf n) := by
  have hself : (merge user).SameButCode (merge user) := ⟨fun _ _ => rfl, .inl rfl⟩
  rw [analysisOf_eq_of_sameButCode hself, analysisOf_eq_of_sameButCode h]
  cases Surveyor.ofSettings user workers with
  | error e => exact ⟨rfl, fun a b ha => by contradiction⟩
  | ok s =>
    show (Surveyor.analyze _ _ _).map _ = (Surveyor.analyze _ _ _).map _ ∧
      ∀ a b, Surveyor.analyze _ _ _ = .ok a → Surveyor.analyze _ _ _ = .ok b → _
    rcases h.extractors_ofSettings with hsame | ⟨x, x', caps, caps', hx, hx', huncapped, hcode,
      hcode'⟩
    · rw [hsame]
      refine ⟨rfl, ?_⟩
      intro a b ha hb kind n hn hcap hcap'
      -- The analysis was reached, so there are extractors, and both settings limit the kind alike.
      rw [s.analyze_withExtractors] at ha
      obtain ⟨-, -, ha⟩ := bind_eq_ok.mp ha
      obtain ⟨x, hx', -⟩ := bind_eq_ok.mp ha
      have hx : Extractors.ofSettings (merge user) = .ok x := hsame.trans hx'
      rw [cap?_of_ofSettings hx] at hcap
      rw [cap?_of_ofSettings hx', hcap] at hcap'
      rcases hcap' with hcap' | hcap'
      · contradiction
      · have hzero : (n : Int) = 0 := Option.some.inj hcap'
        omega
    · rw [hx, hx', s.analyze_recode hcode, s.analyze_recode hcode', huncapped]
      cases (s.withExtractors (.ok x'.uncapped)).analyze files faults with
      | error e => exact ⟨rfl, fun a b ha => by contradiction⟩
      | ok base =>
        constructor
        · show Except.ok (Analysis.withoutCode _) = Except.ok (Analysis.withoutCode _)
          rw [Analysis.withoutCode_recode, Analysis.withoutCode_recode]
        · intro a b ha hb kind n hn hcap hcap' k
          obtain rfl := Except.ok.inj ha
          obtain rfl := Except.ok.inj hb
          rw [cap?_of_ofSettings hx] at hcap
          rw [cap?_of_ofSettings hx'] at hcap'
          rw [Analysis.codes_recode, Analysis.codes_recode, recoding_eq_firstOf hn hcap,
            recoding_eq_id hcap', List.map_id]

/-- Settings that keep seven characters of each function. -/
def shortFunctions : Settings :=
  [("limits", .map [("code", .map [("function", .number 7)])])]

/-- The same settings with no limits of code. -/
def wholeFunctions : Settings :=
  shortFunctions ++ [("limits", .map [("code", .map [])])]

/-- A file with a function. -/
def limitedFile : SourceFile :=
  { path := "src/a.ts", content := "function f() \x7b\x7d\n" }

/-- The function is cut to seven characters, and nothing else differs. -/
theorem analysisOf_code_limits_short :
    ∃ a b, analysisOf shortFunctions none [limitedFile] = .ok a ∧
      analysisOf wholeFunctions none [limitedFile] = .ok b ∧ a.withoutCode = b.withoutCode ∧
      b.codes .functions "function" = ["function f() \x7b\x7d"] ∧
      a.codes .functions "function" = ["functio"] := by
  have hsame : (merge shortFunctions).SameButCode (merge wholeFunctions) :=
    Settings.sameButCode_append [] rfl rfl
  have hb : ((analysisOf wholeFunctions none [limitedFile]).map fun b =>
      b.codes .functions "function").toOption = some ["function f() \x7b\x7d"] := by
    decide +kernel
  obtain ⟨b, hb, hcodes⟩ := exists_eq_ok_of_map hb
  obtain ⟨hframe, hcut⟩ :=
    analysisOf_code_limits shortFunctions wholeFunctions none [limitedFile] [] hsame
  rw [hb] at hframe
  obtain ⟨a, ha, hframe⟩ : ∃ a, analysisOf shortFunctions none [limitedFile] = .ok a ∧
      a.withoutCode = b.withoutCode := by
    cases ha : analysisOf shortFunctions none [limitedFile] with
    | error e =>
      rw [ha, Except.map, Except.map] at hframe
      exact absurd hframe (by simp)
    | ok a =>
      rw [ha] at hframe
      exact ⟨a, rfl, Except.ok.inj hframe⟩
  refine ⟨a, b, ha, hb, hframe, hcodes, ?_⟩
  rw [hcut a b ha hb "function" 7 (by decide) rfl (.inl rfl), hcodes]
  decide

end Survey

end CodeSurvey
