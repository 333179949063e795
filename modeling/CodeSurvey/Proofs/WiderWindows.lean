import CodeSurvey.Proofs.AddedLine
import CodeSurvey.Proofs.Candidates
import CodeSurvey.Proofs.SharedSections

/-!
# Wider windows

Settings say how far the surroundings of a line reach. Where they reach further, more markers stand
within reach. A rule that is mitigated by such a marker then reports less, the rule that is
mitigated by their absence reports more, and a rule that does not look around reports the same.

- `Trend`: what becomes of an answer when one looks further around.
- `hasMarker_window_mono`: a marker within reach stays within a wider one.
- `holds_trend`: what becomes of a condition.
- `Scanner.selects_trend`: what becomes of a finding.
- `Scanner.ofSettings_wider`: what scanners under such settings report.
-/

namespace CodeSurvey.Security

open Text

/-! ## Trends -/

/-- What may become of an answer when one looks further around. -/
inductive Trend where
  /-- It stays. -/
  | steady
  /-- It may become true. -/
  | rising
  /-- It may become false. -/
  | falling
  | unsettled
  deriving Repr, DecidableEq

namespace Trend

/-- Whether an answer may come before and another after. -/
def Allows : Trend → Bool → Bool → Prop
  | steady, before, after => before = after
  | rising, before, after => before = true → after = true
  | falling, before, after => after = true → before = true
  | unsettled, _, _ => True

/-- The trend of an answer that is true if one of two is. -/
def join : Trend → Trend → Trend
  | steady, t | t, steady => t
  | rising, rising => rising
  | falling, falling => falling
  | _, _ => unsettled

variable {t u : Trend} {before after before' after' : Bool}

theorem Allows.of_eq (h : before = after) : t.Allows before after := by
  subst h
  cases t with
  | steady => rfl
  | rising => exact id
  | falling => exact id
  | unsettled => trivial

theorem Allows.or (h : t.Allows before after) (h' : u.Allows before' after') :
    (t.join u).Allows (before || before') (after || after') := by
  cases t <;> cases u <;> simp only [Allows, join] at h h' ⊢ <;>
    cases before <;> cases before' <;> simp_all

/-- What is denied goes the other way. -/
theorem Allows.not (h : t.Allows before after) : t.Allows (!after) (!before) := by
  cases t <;> cases before <;> cases after <;> simp_all [Allows]

theorem Allows.and_left (h : t.Allows before after) (also : Bool) :
    t.Allows (also && before) (also && after) := by
  cases also with
  | false => exact Allows.of_eq rfl
  | true => simpa using h

/-- An answer that stays or rises remains true. -/
theorem Allows.remains (h : t.Allows before after) (ht : t = steady ∨ t = rising)
    (hbefore : before = true) : after = true := by
  rcases ht with rfl | rfl
  · exact Eq.trans h.symm hbefore
  · exact h hbefore

end Trend

/-! ## Windows -/

/-- Each distance is a natural number and not more than the other one. -/
structure Radii.Widens (radii radii' : Radii) : Prop where
  near_nonneg : 0 ≤ radii.near
  near_le : radii.near ≤ radii'.near
  wide_nonneg : 0 ≤ radii.wide
  wide_le : radii.wide ≤ radii'.wide

theorem Radii.Widens.exists_nat {radii radii' : Radii} (h : radii.Widens radii') (reach : Reach) :
    ∃ radius radius' : Nat, radii.of reach = radius ∧ radii'.of reach = radius' ∧
      radius ≤ radius' := by
  have hreach : 0 ≤ radii.of reach ∧ radii.of reach ≤ radii'.of reach := by
    cases reach with
    | near => exact ⟨h.near_nonneg, h.near_le⟩
    | wide => exact ⟨h.wide_nonneg, h.wide_le⟩
  refine ⟨(radii.of reach).toNat, (radii'.of reach).toNat, ?_, ?_, ?_⟩ <;> omega

/-- A marker stands in one of the joined parts, since none reaches across line feeds. -/
theorem hasMarker_join {markers : List String} (h : ∀ m ∈ markers, '\n' ∉ lower m.toList)
    {parts : List (List Char)} (hparts : parts ≠ []) :
    hasMarker markers (join ['\n'] parts) = parts.any (hasMarker markers) := by
  induction parts with
  | nil => contradiction
  | cons part rest ih =>
    cases rest with
    | nil => simp [join_singleton]
    | cons next rest =>
      have hrest := List.cons_ne_nil next rest
      have hfeed : join ['\n'] (part :: next :: rest) =
          part ++ '\n' :: join ['\n'] (next :: rest) := join_cons hrest
      rw [hfeed, hasMarker_feed h, ih hrest]
      rfl

section

variable {s : Scanner} {path : String} {text : List Char} {index : Nat}
  (hindex : index < (lines text).length)

include hindex

theorem hasMarker_window {markers : List String} (h : ∀ m ∈ markers, '\n' ∉ lower m.toList)
    (radius : Nat) :
    hasMarker markers ((Place.mk (s.fileOf path text) index).window radius) =
      (between ((lines text).map s.seen) (index - radius) (index + radius + 1)).any
        (hasMarker markers) := by
  have hlength : index < ((lines text).map s.seen).length := by rwa [List.length_map]
  have hparts := cut_around_ne_nil ((lines text).map s.seen) radius hlength
  rw [cut_around] at hparts
  rw [Place.window, fileOf_lines, List.toList_toArray, cut_around, hasMarker_join h hparts]

/-- A marker within reach stays within a wider one. -/
theorem hasMarker_window_mono {markers : List String} (h : ∀ m ∈ markers, '\n' ∉ lower m.toList)
    {radius radius' : Nat} (hle : radius ≤ radius')
    (hfound : hasMarker markers ((Place.mk (s.fileOf path text) index).window radius) = true) :
    hasMarker markers ((Place.mk (s.fileOf path text) index).window radius') = true := by
  rw [hasMarker_window hindex h, List.any_eq_true] at hfound ⊢
  obtain ⟨line, hline, hfound⟩ := hfound
  refine ⟨line, ?_, hfound⟩
  -- The narrow window is a part of the wide one.
  have hstart : index - radius' + (index - radius - (index - radius')) = index - radius := by omega
  have hstop : index - radius' + (index + radius + 1 - (index - radius')) = index + radius + 1 := by
    omega
  have hinside : index - radius' + (index + radius + 1 - (index - radius')) ≤
      index + radius' + 1 := by
    omega
  rw [← hstart, ← hstop, ← between_between _ hinside] at hline
  exact ((List.take_sublist _ _).trans (List.drop_sublist _ _)).mem hline

end

/-! ## Conditions -/

/-- What becomes of a condition, as far as that can be told from its form. -/
def Condition.trend : Condition → Trend
  | never | onLine _ | inFile _ | fileProtected => .steady
  | around _ _ => .rising
  | lacksAround _ _ => .falling
  | either c d => c.trend.join d.trend

/-- Whether a condition does not look around. -/
def Condition.windowless : Condition → Bool
  | never | onLine _ | inFile _ | fileProtected => true
  | around _ _ | lacksAround _ _ => false
  | either c d => c.windowless && d.windowless

theorem trend_of_windowless {c : Condition} (h : c.windowless = true) : c.trend = .steady := by
  induction c with
  | never => rfl
  | onLine markers => rfl
  | inFile markers => rfl
  | fileProtected => rfl
  | around markers reach => contradiction
  | lacksAround markers reach => contradiction
  | either c d ihc ihd =>
    rw [Condition.windowless, Bool.and_eq_true] at h
    rw [Condition.trend, ihc h.1, ihd h.2]
    rfl

/-- One rule is mitigated by what is missing, all others by what is there. -/
theorem trend_of_mem_rules : ∀ r ∈ rules,
    if r.id = "SEC014" then r.mitigation.trend = .falling
    else r.mitigation.trend = .steady ∨ r.mitigation.trend = .rising := by
  decide +kernel

/-- The scanner with other distances. -/
def Scanner.withRadii (s : Scanner) (radii : Radii) : Scanner :=
  { s with outlook := { s.outlook with radii } }

section

variable {s : Scanner} {radii : Radii} (hwidens : s.outlook.radii.Widens radii) {path : String}
  {text : List Char}

include hwidens

/-- **Conditions follow their trend** when the windows become wider. The induction is on the
condition. -/
theorem holds_trend {index : Nat} (hindex : index < (lines text).length) {c : Condition}
    (hinline : c.Inline) :
    c.trend.Allows (c.holds s.outlook ⟨s.fileOf path text, index⟩)
      (c.holds (s.withRadii radii).outlook ⟨s.fileOf path text, index⟩) := by
  induction c with
  | never => rfl
  | onLine markers => rfl
  | inFile markers => rfl
  | fileProtected => rfl
  | around markers reach =>
    obtain ⟨radius, radius', hradius, hradius', hle⟩ := hwidens.exists_nat reach
    intro hholds
    rw [Condition.holds, hradius] at hholds
    rw [Condition.holds, Scanner.withRadii, hradius']
    exact hasMarker_window_mono hindex hinline hle hholds
  | lacksAround markers reach =>
    obtain ⟨radius, radius', hradius, hradius', hle⟩ := hwidens.exists_nat reach
    intro hholds
    rw [Condition.holds, Scanner.withRadii, hradius', Bool.not_eq_true'] at hholds
    rw [Condition.holds, hradius, Bool.not_eq_true']
    -- What is missing further around is missing nearby.
    by_contra hfound
    rw [Bool.not_eq_false] at hfound
    have hstays := hasMarker_window_mono hindex hinline hle hfound
    exact Bool.false_ne_true (hholds.symm.trans hstays)
  | either c d ihc ihd =>
    have hc : c.Inline := fun m hm => hinline m (List.mem_append_left _ hm)
    have hd : d.Inline := fun m hm => hinline m (List.mem_append_right _ hm)
    exact (ihc hc).or (ihd hd)

/-- A finding goes the other way than the mitigation of its rule. -/
theorem Scanner.selects_trend (hrules : s.rules.Sublist Security.rules) {f : Finding}
    (hf : f ∈ s.candidates path text) :
    f.rule.mitigation.trend.Allows ((s.withRadii radii).selects path text f)
      (s.selects path text f) := by
  obtain ⟨hindex, hrule⟩ := exists_of_mem_candidates hf
  have hinline := inline_of_mem_rules f.rule (hrules.mem hrule)
  have hmitigated : f.rule.mitigation.trend.Allows
      (f.rule.mitigation.holds s.outlook ⟨s.fileOf path text, f.line - 1⟩)
      (f.rule.mitigation.holds (s.withRadii radii).outlook ⟨s.fileOf path text, f.line - 1⟩) :=
    holds_trend hwidens hindex hinline
  have hreported := hmitigated.not.and_left
    (f.rule.pattern.occursIn (Place.mk (s.fileOf path text) (f.line - 1)).line)
  exact hreported.and_left s.enabled

end

/-! ## Findings -/

/-- What is selected more strictly is a part of what is selected. -/
theorem filter_sublist_of_imp {xs : List α} {p q : α → Bool}
    (h : ∀ x ∈ xs, p x = true → q x = true) : (xs.filter p).Sublist (xs.filter q) := by
  have hboth : xs.filter p = (xs.filter q).filter p := by
    rw [List.filter_filter]
    apply List.filter_congr
    intro x hx
    cases hp : p x with
    | false => rfl
    | true => rw [h x hx hp]; rfl
  rw [hboth]
  exact List.filter_sublist

/-- The distances that settings describe. -/
def radiiOf (settings : Settings) : Except SettingsError Radii :=
  (settings.sectionNamed "security").map fun security =>
    ⟨security.int "context_radius" 5, security.int "wide_context_radius" 10⟩

/-- Scanners under settings that differ in the distances do so too, and in nothing else. -/
theorem ofSettings_withRadii {settings settings' : Settings}
    (h : Settings.SameBut "security" ["context_radius", "wide_context_radius"] settings settings')
    {radii radii' : Radii} (hradii : radiiOf settings = .ok radii)
    (hradii' : radiiOf settings' = .ok radii') (auth : Auth) :
    ∃ s : Scanner, s.outlook.radii = radii ∧ Scanner.ofSettings settings auth = .ok s ∧
      Scanner.ofSettings settings' auth = .ok (s.withRadii radii') := by
  obtain ⟨entries, entries', hsection, hsection', hothers⟩ := h.inside
  rw [radiiOf, hsection] at hradii
  rw [radiiOf, hsection'] at hradii'
  obtain rfl := Except.ok.inj hradii
  obtain rfl := Except.ok.inj hradii'
  rw [Scanner.ofSettings, Scanner.ofSettings, hsection, hsection']
  refine ⟨_, ?_, rfl, ?_⟩
  · rfl
  · show Except.ok _ = Except.ok _
    simp only [Scanner.withRadii, Settings.bound?, Settings.strings, hothers "enabled" (by decide),
      hothers "max_line_length" (by decide), hothers "disabled_rules" (by decide)]

/-- **Looking further around.** Of settings that differ in the distances only, those with the wider
ones let no rule report more but the one that is mitigated by what is missing around a line. That
one reports no less, and a rule that does not look around reports the same. Who is asking is found
out in the same way under both. -/
theorem Scanner.ofSettings_wider {settings settings' : Settings}
    (h : Settings.SameBut "security" ["context_radius", "wide_context_radius"] settings settings')
    {radii radii' : Radii} (hradii : radiiOf settings = .ok radii)
    (hradii' : radiiOf settings' = .ok radii') (hwidens : radii.Widens radii') (auth : Auth) :
    Auth.ofSettings settings = Auth.ofSettings settings' ∧
    ∃ s s', Scanner.ofSettings settings auth = .ok s ∧
      Scanner.ofSettings settings' auth = .ok s' ∧
      ∀ path text,
        ((s'.scan path text).filter (·.rule.id ≠ "SEC014")).Sublist (s.scan path text) ∧
        ((s.scan path text).filter (·.rule.id = "SEC014")).Sublist (s'.scan path text) ∧
        (s.scan path text).filter (·.rule.mitigation.windowless) =
          (s'.scan path text).filter (·.rule.mitigation.windowless) := by
  obtain ⟨s, rfl, hs, hs'⟩ := ofSettings_withRadii h hradii hradii' auth
  have hrules := sublist_rules_of_ofSettings hs
  refine ⟨h.outside.auth, s, s.withRadii radii', hs, hs', fun path text => ?_⟩
  -- Both scanners select from the same candidates.
  have hscan : (s.withRadii radii').scan path text =
      (s.candidates path text).filter ((s.withRadii radii').selects path text) :=
    (s.withRadii radii').scan_eq_filter path text
  have htrend {f : Finding} (hf : f ∈ s.candidates path text) := s.selects_trend hwidens hrules hf
  have hmitigation {f : Finding} (hf : f ∈ s.candidates path text) :=
    trend_of_mem_rules f.rule (hrules.mem (exists_of_mem_candidates hf).2)
  rw [hscan, s.scan_eq_filter]
  simp only [List.filter_filter]
  refine ⟨?mitigated, ?missing, ?windowless⟩
  case mitigated =>
    apply filter_sublist_of_imp
    intro f hf hselected
    rw [Bool.and_eq_true, decide_eq_true_eq] at hselected
    have hsome := hmitigation hf
    rw [if_neg hselected.1] at hsome
    exact (htrend hf).remains hsome hselected.2
  case missing =>
    apply filter_sublist_of_imp
    intro f hf hselected
    rw [Bool.and_eq_true, decide_eq_true_eq] at hselected
    have hfalls := hmitigation hf
    rw [if_pos hselected.1] at hfalls
    have hback := htrend hf
    rw [hfalls] at hback
    exact hback hselected.2
  case windowless =>
    apply List.filter_congr
    intro f hf
    cases hwindowless : f.rule.mitigation.windowless with
    | false => rfl
    | true =>
      have hsame := htrend hf
      rw [trend_of_windowless hwindowless] at hsame
      rw [show s.selects path text f = (s.withRadii radii').selects path text f from hsame.symm]

/-- Settings under which seven lines count as near. -/
def sevenNear : Settings :=
  [("security", .map [("context_radius", .number 7)])]

/-- Seven lines below two markers, a random number is drawn, and what a text comes to as code is
written into a document. -/
def markedAbove : List Char :=
  "key xss(\n\n\n\n\n\n\nMath.random(),a.innerHTML=eval(b)".toList

/-- By default the markers are too far away. Where they are within reach, the markup is no longer
reported, the random number is, and the code is reported as before. -/
theorem Scanner.ofSettings_wider_seven :
    ∃ s s', Scanner.ofSettings (merge []) .standard = .ok s ∧
      Scanner.ofSettings (merge sevenNear) .standard = .ok s' ∧
      (s.scan "src/a.ts" markedAbove).map (·.rule.id) = ["SEC009", "SEC010"] ∧
      (s'.scan "src/a.ts" markedAbove).map (·.rule.id) = ["SEC010", "SEC014"] ∧
      ((s'.scan "src/a.ts" markedAbove).filter (·.rule.id ≠ "SEC014")).Sublist
        (s.scan "src/a.ts" markedAbove) ∧
      ((s.scan "src/a.ts" markedAbove).filter (·.rule.id = "SEC014")).Sublist
        (s'.scan "src/a.ts" markedAbove) ∧
      (s.scan "src/a.ts" markedAbove).filter (·.rule.mitigation.windowless) =
        (s'.scan "src/a.ts" markedAbove).filter (·.rule.mitigation.windowless) := by
  have hsame : Settings.SameBut "security" ["context_radius", "wide_context_radius"] (merge [])
      (merge sevenNear) := by
    have hone : Settings.SameBut "security" ["context_radius"] (merge []) (merge sevenNear) :=
      Settings.sameBut_append [("context_radius", .number 7)]
        (show Value.lookup? "security" (merge []) = some (.map defaultSecurity) from rfl)
    exact hone.mono (by decide)
  -- The markers are seven lines above: out of reach at five, within it at seven.
  have hradii : radiiOf (merge []) = .ok ⟨5, 10⟩ := rfl
  have hradii' : radiiOf (merge sevenNear) = .ok ⟨7, 10⟩ := rfl
  obtain ⟨-, s, s', hs, hs', hwider⟩ := ofSettings_wider hsame hradii hradii'
    ⟨by decide, by decide, by decide, by decide⟩ .standard
  obtain rfl := Except.ok.inj (ofSettings_standard.symm.trans hs)
  obtain rfl := Except.ok.inj
    ((show Scanner.ofSettings (merge sevenNear) .standard =
      .ok (Scanner.standard.withRadii ⟨7, 10⟩) from rfl).symm.trans hs')
  exact ⟨_, _, hs, hs', by decide +kernel, by decide +kernel, hwider "src/a.ts" markedAbove⟩

end CodeSurvey.Security
