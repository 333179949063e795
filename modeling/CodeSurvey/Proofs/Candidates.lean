import CodeSurvey.Proofs.Findings
import Mathlib.Data.List.Basic

/-!
# What might be found

On every line of a file, every rule for the file might report something. A scan selects from these
candidates, in their order, and asks of each of them alone whether it is reported. So scanners that
differ in one respect are compared candidate by candidate.

- `Scanner.candidates`: what might be found in a file.
- `Scanner.scan_eq_filter`: what is found is selected from it.
- `Scanner.scan_onlyRules`: some of the rules find what these rules find among all.
-/

namespace CodeSurvey.Security

open Text

variable {s : Scanner} {path : String} {text : List Char}

/-- What a rule has to say about a place. -/
def Rule.findingAt (r : Rule) (path : String) (p : Place) : Finding :=
  ⟨r, path, p.index + 1, String.ofList ((trim p.line).take longestSnippet)⟩

/-- What might be found in a file: whatever the rules for it have to say about its lines. -/
def Scanner.candidates (s : Scanner) (path : String) (text : List Char) : List Finding :=
  (List.range (s.fileOf path text).lines.size).flatMap fun index =>
    (s.rules.filter fun r => r.scope.covers path.toList).map fun r =>
      r.findingAt path ⟨s.fileOf path text, index⟩

/-- Whether a candidate is reported. -/
def Scanner.selects (s : Scanner) (path : String) (text : List Char) (f : Finding) : Bool :=
  s.enabled && f.rule.reports s.outlook ⟨s.fileOf path text, f.line - 1⟩

/-- A candidate names a line of the file and a rule. -/
theorem exists_of_mem_candidates {f : Finding} (h : f ∈ s.candidates path text) :
    f.line - 1 < (lines text).length ∧ f.rule ∈ s.rules := by
  obtain ⟨index, hindex, hf⟩ := List.mem_flatMap.mp h
  obtain ⟨r, hr, rfl⟩ := List.mem_map.mp hf
  have hsize : (s.fileOf path text).lines.size = (lines text).length := by simp [fileOf_lines]
  rw [List.mem_range, hsize] at hindex
  exact ⟨hindex, (List.mem_filter.mp hr).1⟩

/-- What rules report at a place is selected from what they have to say about it. -/
theorem filterMap_finding? (rules : List Rule) (p : Place) :
    rules.filterMap (s.finding? p path) =
      (rules.map fun r => r.findingAt path p).filter fun f => f.rule.reports s.outlook p := by
  induction rules with
  | nil => rfl
  | cons r rest ih =>
    rw [List.filterMap_cons, List.map_cons, List.filter_cons, ← ih]
    have hrule : (r.findingAt path p).rule = r := rfl
    rw [hrule, Scanner.finding?]
    cases r.reports s.outlook p <;> rfl

/-- **Scans select.** What is found in a file is selected from what might be found in it. -/
theorem Scanner.scan_eq_filter (s : Scanner) (path : String) (text : List Char) :
    s.scan path text = (s.candidates path text).filter (s.selects path text) := by
  unfold Scanner.scan
  split
  · rename_i henabled
    rw [Scanner.candidates, List.filter_flatMap]
    apply List.flatMap_congr
    intro index _
    rw [filterMap_finding?]
    apply List.filter_congr
    intro f hf
    obtain ⟨r, -, rfl⟩ := List.mem_map.mp hf
    rw [Scanner.selects, henabled]
    rfl
  · -- Scans that are turned off find nothing, and then nothing is selected.
    rename_i hdisabled
    rw [eq_comm, List.filter_eq_nil_iff]
    intro f _
    rw [Scanner.selects, Bool.eq_false_iff.mpr hdisabled]
    exact Bool.false_ne_true

/-! ## Some of the rules -/

/-- The scanner with some of its rules. -/
def Scanner.onlyRules (s : Scanner) (keep : Rule → Bool) : Scanner :=
  { s with rules := s.rules.filter keep }

/-- **Some of the rules** find what is found by these rules among all of them. -/
theorem Scanner.scan_onlyRules (s : Scanner) (keep : Rule → Bool) (path : String)
    (text : List Char) :
    (s.onlyRules keep).scan path text = (s.scan path text).filter fun f => keep f.rule := by
  have hcandidates : (s.onlyRules keep).candidates path text =
      (s.candidates path text).filter fun f => keep f.rule := by
    rw [Scanner.candidates, Scanner.candidates, List.filter_flatMap]
    apply List.flatMap_congr
    intro index _
    rw [List.filter_map, Scanner.onlyRules, List.filter_filter, List.filter_filter]
    congr 2
    funext r
    exact Bool.and_comm _ _
  rw [scan_eq_filter, scan_eq_filter, hcandidates, List.filter_filter, List.filter_filter]
  congr 1
  funext f
  exact Bool.and_comm _ _

end CodeSurvey.Security
