import CodeSurvey.Proofs.PlainDeclaration
import CodeSurvey.Proofs.Spans

/-!
# Extents of functions

A function extends from its header to the end of its body. Headers never overlap, and each begins a
line with a letter; so functions are apart as long as no line in a body begins with a letter. What
begins a line in a body with the header of a function is listed as a function of its own.

- `functionExtents`: where the functions of a text extend.
- `startsLine_of_mem_functionExtents`: where their headers stand.
- `functions_apart`: functions are apart unless a line in a body begins with a letter.
- `nested_functions`: a function inside the body of another.
-/

namespace CodeSurvey.Extract

open Text Source Pattern

variable {limits : Limits} {content : List Char}

/-! ## Headers and bodies -/

/-- The functions of a text: what the rules for headers found, and what is read behind. -/
def functionExtents (limits : Limits) (content : List Char) :
    List (Span CallableForm × Callable) :=
  (scan functionRules content).filterMap fun s =>
    (callableOf limits content s).map fun c => (s, c)

/-- The function that extends from a header to the end of a body. -/
def functionOf (limits : Limits) (v : View) (e : Span CallableForm × Callable) : Function :=
  buildFunction limits v (e.1.group "name") e.1.start e.2 (e.1.has "export") (e.1.has "async")

/-- Each function extends from its header to the end of its body. -/
theorem functions_eq_map (limits : Limits) (v : View) :
    functions limits v = (functionExtents limits v.content).map (functionOf limits v) := by
  rw [functions, functionExtents, List.map_filterMap]
  apply List.filterMap_congr
  intro s _
  rw [Option.map_map]
  rfl

/-- Every form of a function begins a line with a Latin letter. -/
theorem anchored_of_mem_functionRules : ∀ r ∈ functionRules, r.pattern.Anchored := by
  intro r hr
  simp only [functionRules, List.mem_cons, List.not_mem_nil, or_false] at hr
  rcases hr with rfl | rfl | rfl | rfl
  · exact declarationHeader_anchored
  · exact bindingStart_anchored.seq _
  · exact bindingStart_anchored.seq _
  · exact bindingStart_anchored.seq _

/-- **Headers begin lines.** The header of a function stands at the start of a line, and its first
character is a Latin letter. -/
theorem startsLine_of_mem_functionExtents {e : Span CallableForm × Callable}
    (h : e ∈ functionExtents limits content) :
    startsLine (content.take e.1.start).reverse = true ∧
      (content.drop e.1.start).head?.any CharSet.letters.mem = true := by
  obtain ⟨s, hs, h⟩ := List.mem_filterMap.mp h
  obtain ⟨c, -, rfl⟩ := Option.map_eq_some_iff.mp h
  obtain ⟨r, hr, -, hmatches⟩ := exists_rule_of_mem_scan hs
  exact hmatches.startsLine (anchored_of_mem_functionRules r hr)

/-- No header begins before those in front of it have stopped. -/
theorem functionExtents_pairwise (limits : Limits) (content : List Char) :
    (functionExtents limits content).Pairwise fun a b => a.1.stop ≤ b.1.start := by
  refine List.Pairwise.filterMap _ ?_ (scan_pairwise functionRules content)
  intro s s' hapart e he e' he'
  obtain ⟨c, -, rfl⟩ := Option.map_eq_some_iff.mp he
  obtain ⟨c', -, rfl⟩ := Option.map_eq_some_iff.mp he'
  exact hapart

/-! ## Quiet bodies -/

/-- No line in the text between the offsets begins with a Latin letter. -/
def QuietBetween (content : List Char) (start stop : Nat) : Prop :=
  Quiet (startsLine (content.take start).reverse) (between content start stop)

/-- Where a line begins with a letter, a text is not quiet. -/
theorem not_quietBetween {start stop place : Nat} (hstart : start ≤ place) (hstop : place < stop)
    (hline : startsLine (content.take place).reverse = true)
    (hletter : (content.drop place).head?.any CharSet.letters.mem = true) :
    ¬QuietBetween content start stop := by
  intro hquiet
  -- The body is what stands before the place and what begins there.
  rw [QuietBetween, between_split content hstart (Nat.le_of_lt hstop)] at hquiet
  have hrest := hquiet.drop
  rw [← List.reverse_append, take_append_between content hstart, hline] at hrest
  cases hhead : content.drop place with
  | nil =>
    rw [hhead] at hletter
    contradiction
  | cons c rest =>
    have hbody : between content place stop = c :: rest.take (stop - place - 1) := by
      obtain ⟨n, hn⟩ : ∃ n, stop - place = n + 1 := ⟨stop - place - 1, by omega⟩
      rw [between, hhead, hn, List.take_succ_cons, Nat.add_sub_cancel]
    rw [hbody] at hrest
    rw [hhead, List.head?_cons, Option.any_some, hrest.1 rfl] at hletter
    contradiction

/-- **Functions are apart.** The functions of a file extend from their headers to the ends of their
bodies, in order. No header begins before the one in front of it has stopped, and none begins in the
body of a function before it unless a line there begins with a letter. -/
theorem functions_apart (limits : Limits) (v : View) :
    functions limits v = (functionExtents limits v.content).map (functionOf limits v) ∧
      (functionExtents limits v.content).Pairwise fun a b => a.1.stop ≤ b.1.start ∧
        (QuietBetween v.content a.1.stop a.2.stop → a.2.stop ≤ b.1.start) := by
  refine ⟨functions_eq_map limits v, ?_⟩
  refine (functionExtents_pairwise limits v.content).imp_of_mem ?_
  intro a b _ hb hapart
  refine ⟨hapart, fun hquiet => ?_⟩
  -- A header in the body would begin a line there, with a letter.
  by_contra hinside
  obtain ⟨hline, hletter⟩ := startsLine_of_mem_functionExtents hb
  exact not_quietBetween hapart (Nat.lt_of_not_le hinside) hline hletter hquiet

/-- **A function inside another.** A function that begins a line in the body of another is listed
with it. -/
theorem nested_functions :
    let limits : Limits := ⟨blockFallback, blockCeiling, signatureCeiling, definitionCeiling, 50,
      .ok []⟩
    let view := View.ofFile default
      "function outer() \x7b\nfunction inner() \x7b\x7d\n\x7d\n".toList
    (functions limits view).map (fun f => (f.name, f.lineStart, f.lineEnd)) =
        [("outer", 1, 3), ("inner", 2, 2)] ∧
      (functionExtents limits view.content).map (fun e => (e.1.start, e.2.stop)) =
        [(0, 40), (19, 38)] := by
  intro limits view
  have hsorted : (functionRules.map (·.scan view.content)).flatten.Pairwise fun a b =>
      decide (a.start ≤ b.start) = true := by
    decide +kernel
  rw [functions_eq_map, functionExtents, scan_eq_of_sorted hsorted]
  decide +kernel

end CodeSurvey.Extract
