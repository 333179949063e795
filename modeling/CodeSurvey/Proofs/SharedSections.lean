import CodeSurvey.Survey.Surveyor

/-!
# Settings that share sections

Settings are read section by section. What is made of one section depends on no other, so settings
that differ in a single section are read alike wherever this one is not asked for.

- `Settings.SameOutside`: settings that differ in one section at most.
- `Settings.SameBut`: settings that differ in some entries of one section at most.
- `Settings.sameBut_append`: a user who gives these entries last.
- `SameOutside.classifier`, `SameOutside.auth` and so on: what such settings have in common.
-/

namespace CodeSurvey

/-! ## Entries -/

theorem lookup?_put_self (key : String) (v : Value) (entries : Settings) :
    Value.lookup? key (Value.put key v entries) = some v := by
  unfold Value.lookup?
  induction entries with
  | nil => exact List.lookup_cons_self
  | cons e rest ih =>
    rw [Value.put]
    by_cases hkey : e.1 = key
    · rw [if_pos (beq_iff_eq.mpr hkey), hkey]
      exact List.lookup_cons_self
    · have hne : (key == e.1) = false := beq_eq_false_iff_ne.mpr (Ne.symm hkey)
      rw [if_neg (by simpa using hkey), List.lookup_cons, hne]
      exact ih

theorem lookup?_put_of_ne {key other : String} (h : other ≠ key) (v : Value) (entries : Settings) :
    Value.lookup? other (Value.put key v entries) = Value.lookup? other entries := by
  unfold Value.lookup?
  induction entries with
  | nil =>
    have hne : (other == key) = false := by simpa using h
    rw [Value.put, List.lookup_cons, hne]
  | cons e rest ih =>
    rw [Value.put]
    split
    · rename_i hkey
      have hne : (other == e.1) = false := by simpa [eq_of_beq hkey] using h
      rw [List.lookup_cons, List.lookup_cons, hne]
    · rw [List.lookup_cons, List.lookup_cons, ih]

theorem lookup?_putAll_of_notMem {other : String} {added : Settings}
    (h : other ∉ added.map (·.1)) (entries : Settings) :
    Value.lookup? other (Value.putAll entries added) = Value.lookup? other entries := by
  unfold Value.putAll
  induction added generalizing entries with
  | nil => rfl
  | cons e rest ih =>
    rw [List.map_cons, List.mem_cons, not_or] at h
    rw [List.foldl_cons, ih h.2, lookup?_put_of_ne h.1]

/-- What a user gives for a section last is put over what there was. -/
theorem merge_append {name : String} {user entries : Settings} (given : Settings)
    (hentries : Value.lookup? name (merge user) = some (.map entries)) :
    merge (user ++ [(name, .map given)]) =
      Value.put name (.map (Value.putAll entries given)) (merge user) := by
  rw [merge, mergeOver, List.foldl_append]
  show mergeSection (merge user) name _ = _
  unfold mergeSection
  rw [hentries]

/-! ## One section -/

/-- Settings that differ in one section at most. -/
def Settings.SameOutside (name : String) (settings settings' : Settings) : Prop :=
  ∀ key, key ≠ name → Value.lookup? key settings = Value.lookup? key settings'

/-- Settings that differ in some entries of one section at most. -/
structure Settings.SameBut (name : String) (keys : List String) (settings settings' : Settings) :
    Prop where
  outside : SameOutside name settings settings'
  inside : ∃ entries entries' : Settings, settings.sectionNamed name = .ok entries ∧
    settings'.sectionNamed name = .ok entries' ∧
    ∀ key, key ∉ keys → Value.lookup? key entries = Value.lookup? key entries'

theorem Settings.SameBut.mono {name : String} {keys keys' : List String}
    {settings settings' : Settings} (h : SameBut name keys settings settings')
    (hkeys : keys ⊆ keys') : SameBut name keys' settings settings' := by
  obtain ⟨entries, entries', hsection, hsection', hothers⟩ := h.inside
  exact ⟨h.outside, entries, entries', hsection, hsection',
    fun key hkey => hothers key fun hmem => hkey (hkeys hmem)⟩

/-- A user who gives entries of a section last changes nothing else. -/
theorem Settings.sameBut_append {name : String} {user entries : Settings} (given : Settings)
    (hentries : Value.lookup? name (merge user) = some (.map entries)) :
    SameBut name (given.map (·.1)) (merge user) (merge (user ++ [(name, .map given)])) := by
  rw [merge_append given hentries]
  constructor
  case outside =>
    intro key hkey
    exact (lookup?_put_of_ne hkey _ _).symm
  case inside =>
    refine ⟨entries, Value.putAll entries given, ?_, ?_, ?_⟩
    · simp only [Settings.sectionNamed, hentries, asSection]
    · simp only [Settings.sectionNamed, lookup?_put_self, asSection]
    · intro key hkey
      exact (lookup?_putAll_of_notMem hkey entries).symm

section

variable {name : String} {settings settings' : Settings}
  (h : Settings.SameOutside name settings settings')

include h

namespace Settings.SameOutside

theorem sectionNamed {key : String} (hkey : key ≠ name) (use : SectionUse) :
    settings.sectionNamed key use = settings'.sectionNamed key use := by
  rw [Settings.sectionNamed, Settings.sectionNamed, h key hkey]

theorem workers (hname : "workers" ≠ name := by decide) :
    Survey.checkWorkers settings = Survey.checkWorkers settings' := by
  simp only [Survey.checkWorkers, h _ hname]

theorem classifier (hname : "languages" ≠ name := by decide) :
    Files.Classifier.ofSettings settings = Files.Classifier.ofSettings settings' := by
  simp only [Files.Classifier.ofSettings, h.sectionNamed hname]

theorem categories (hname : "categories" ≠ name := by decide) :
    Files.categoriesOf settings = Files.categoriesOf settings' := by
  simp only [Files.categoriesOf, h.sectionNamed hname]

theorem auth (hname : "auth" ≠ name := by decide) :
    Security.Auth.ofSettings settings = Security.Auth.ofSettings settings' := by
  simp only [Security.Auth.ofSettings, h.sectionNamed hname]

theorem environment (hname : "env" ≠ name := by decide) :
    Environment.languagesOf settings = Environment.languagesOf settings' := by
  simp only [Environment.languagesOf, h.sectionNamed hname]

theorem scanner (hname : "security" ≠ name := by decide) :
    Security.Scanner.ofSettings settings = Security.Scanner.ofSettings settings' := by
  funext auth
  simp only [Security.Scanner.ofSettings, h.sectionNamed hname]

theorem weights (hname : "security" ≠ name := by decide) :
    Security.weightsOf settings = Security.weightsOf settings' := by
  simp only [Security.weightsOf, h.sectionNamed hname]

theorem thresholds (hname : "complexity" ≠ name := by decide) :
    Metrics.Thresholds.ofSettings settings = Metrics.Thresholds.ofSettings settings' := by
  simp only [Metrics.Thresholds.ofSettings, h.sectionNamed hname]

theorem scale (hname : "quality" ≠ name := by decide) :
    Metrics.QualityScale.ofSettings settings = Metrics.QualityScale.ofSettings settings' := by
  simp only [Metrics.QualityScale.ofSettings, h.sectionNamed hname]

theorem shown (hname : "stats" ≠ name := by decide) :
    Metrics.shownOf settings = Metrics.shownOf settings' := by
  simp only [Metrics.shownOf, h.sectionNamed hname]

theorem limits (hname : "limits" ≠ name := by decide) :
    Extract.Limits.ofSettings settings = Extract.Limits.ofSettings settings' := by
  simp only [Extract.Limits.ofSettings, h.sectionNamed hname]

theorem extractors (hlimits : "limits" ≠ name := by decide)
    (hlanguages : "languages" ≠ name := by decide) (hauth : "auth" ≠ name := by decide) :
    Extract.Extractors.ofSettings settings = Extract.Extractors.ofSettings settings' := by
  simp only [Extract.Extractors.ofSettings, h.limits hlimits, h.sectionNamed hlanguages,
    h.auth hauth]

end Settings.SameOutside

end

end CodeSurvey
