import CodeSurvey.Metrics.Complexity
import CodeSurvey.Proofs.LineViews
import Mathlib.Algebra.BigOperators.Ring.Finset

/-!
# Decision points line by line

Every form of a decision point stands on one line: neither a keyword nor an operator holds a line
feed, and what is asked of the characters around them is the same at the end of a line as in front
of a line feed. So the decision points of a piece of code are those of its lines.

- `complexity_eq`: complexity as a number of decision points.
- `decisions_lines`, `complexity_lines`: both add up over the lines.
-/

namespace CodeSurvey.Metrics

open Text

/-- The number of places where a piece of code decides. -/
def decisions (code : List Char) : Nat :=
  (decisionPatterns.map fun p => (p.findAll code).length).sum

theorem complexity_eq (code : List Char) : complexity code = 1 + decisions code := by
  have hfold (patterns : List Pattern) (n : Nat) :
      patterns.foldl (fun n p => n + (p.findAll code).length) n =
        n + (patterns.map fun p => (p.findAll code).length).sum := by
    induction patterns generalizing n with
    | nil => rfl
    | cons p patterns ih => rw [List.foldl_cons, ih, List.map_cons, List.sum_cons, Nat.add_assoc]
  exact hfold decisionPatterns 1

/-- Every form of a decision point reads something, and sees one line. -/
theorem decisionPatterns_seesLine :
    ∀ p ∈ decisionPatterns, p.seesLine = true ∧ p.surely (fun _ => true) = true := by
  decide

/-- Patterns have as many matches in texts as these have matches of them. -/
theorem sum_countOver (patterns : List Pattern) (texts : List (List Char)) :
    (patterns.map (·.countOver texts)).sum =
      (texts.map fun text => (patterns.map fun p => (p.findAll text).length).sum).sum := by
  induction patterns with
  | nil => simp
  | cons p patterns ih =>
    rw [List.map_cons, List.sum_cons, ih, Pattern.countOver, ← List.sum_map_add]
    rfl

/-- The decision points of a text are those of its lines. -/
theorem decisions_lines (text : List Char) :
    decisions text = ((splitAt '\n' text).map decisions).sum := by
  have hcounts : (decisionPatterns.map fun p => (p.findAll text).length) =
      decisionPatterns.map (·.countOver (splitAt '\n' text)) :=
    List.map_congr_left fun p hp =>
      have ⟨hline, hsurely⟩ := decisionPatterns_seesLine p hp
      p.length_findAll_lines hline hsurely text
  rw [decisions, hcounts, sum_countOver]
  rfl

/-- **Complexity line by line.** Beyond the one that every piece of code has, the complexity of a
text is the sum of what its lines have beyond it. -/
theorem complexity_lines (text : List Char) :
    (complexity text : Int) - 1 =
      ((splitAt '\n' text).map fun line => (complexity line : Int) - 1).sum := by
  have hbeyond (code : List Char) : (complexity code : Int) - 1 = decisions code := by
    rw [complexity_eq]
    omega
  simp only [hbeyond]
  rw [decisions_lines, Nat.cast_list_sum, List.map_map]
  rfl

end CodeSurvey.Metrics
