import CodeSurvey.Proofs.Concatenation
import CodeSurvey.Proofs.StableSort

/-!
# Functions and their callers

Functions say which names they call. From that, and from nothing else, it is worked out by which
names each of them is called. Names may occur more than once, functions may call themselves, and
they may call names that no function has.

- `mem_callersOf`, `callersOf_pairwise`: the callers of a function.
- `callersOf_withCallers`: they stay the same when functions have been told their callers.
- `withCallers_inverse`: what is worked out is the inverse of what the functions say.
-/

namespace CodeSurvey.Survey

variable {functions : List Function} {f : Function} {name : String}

/-! ## Callers of a function -/

theorem mem_withCallers :
    f ∈ withCallers functions ↔ ∃ g ∈ functions, { g with calledBy := callersOf functions g } = f :=
  List.mem_map

/-- The callers of a function are the names of the functions that call it by its name, apart from
its own. -/
theorem mem_callersOf :
    name ∈ callersOf functions f ↔ name ≠ f.name ∧ ∃ g ∈ functions, g.name = name ∧
      f.name ∈ g.callsTo := by
  rw [callersOf, Text.mem_sortedNames, List.mem_map]
  simp only [List.mem_filter, calls, Bool.and_eq_true, List.contains_iff_mem, bne_iff_ne]
  constructor
  · rintro ⟨g, ⟨hg, hcall, hother⟩, rfl⟩
    exact ⟨hother, g, hg, rfl, hcall⟩
  · rintro ⟨hother, g, hg, rfl, hcall⟩
    exact ⟨g, ⟨hg, hcall, hother⟩, rfl⟩

/-- Callers are listed in order, each once. -/
theorem callersOf_pairwise (functions : List Function) (f : Function) :
    (callersOf functions f).Pairwise (· < ·) :=
  Text.sortedNames_pairwise _

/-- A function has no callers if none but functions of its own name call it by its name. -/
theorem callersOf_eq_nil_iff :
    callersOf functions f = [] ↔ ∀ g ∈ functions, f.name ∈ g.callsTo → g.name = f.name := by
  rw [List.eq_nil_iff_forall_not_mem]
  constructor
  · intro hnone g hg hcall
    refine Decidable.byContradiction fun hother => ?_
    exact hnone g.name (mem_callersOf.mpr ⟨hother, g, hg, rfl, hcall⟩)
  · intro hown name hname
    obtain ⟨hother, g, hg, rfl, hcall⟩ := mem_callersOf.mp hname
    exact hother (hown g hg hcall)

/-! ## Functions with their callers -/

/-- What functions know of their callers does not change who calls whom. -/
theorem callersOf_withCallers (functions : List Function) :
    callersOf (withCallers functions) = callersOf functions := by
  funext callee
  unfold callersOf withCallers
  rw [List.filter_map, List.map_map]
  rfl

/-- Functions are told their callers, and nothing else about them changes. -/
theorem withCallers_withoutCallers (functions : List Function) :
    (withCallers functions).map withoutCallers = functions.map withoutCallers := by
  rw [withCallers, List.map_map]
  rfl

/-- Functions that know their callers are told nothing new. -/
theorem withCallers_withCallers (functions : List Function) :
    withCallers (withCallers functions) = withCallers functions := by
  rw [withCallers, callersOf_withCallers, withCallers, List.map_map]
  rfl

/-- **The inverse of calls.** Functions that are told their callers stay in their places, and all
else about them stays as it is. Their callers are, in order and each once, the names of the
functions that call them by their names, apart from their own. Telling them again changes
nothing. -/
theorem withCallers_inverse (functions : List Function) :
    (withCallers functions).length = functions.length ∧
      (withCallers functions).map withoutCallers = functions.map withoutCallers ∧
      (∀ f ∈ withCallers functions, f.calledBy.Pairwise (· < ·) ∧
        ∀ name, name ∈ f.calledBy ↔ name ≠ f.name ∧ ∃ g ∈ withCallers functions, g.name = name ∧
          f.name ∈ g.callsTo) ∧
      withCallers (withCallers functions) = withCallers functions := by
  refine ⟨List.length_map _, withCallers_withoutCallers functions, fun f hf => ?_,
    withCallers_withCallers functions⟩
  -- The callers of a function are worked out from its name, which stays as it is.
  have hcallers : f.calledBy = callersOf (withCallers functions) f := by
    obtain ⟨g, -, rfl⟩ := mem_withCallers.mp hf
    rw [callersOf_withCallers]
    rfl
  rw [hcallers]
  exact ⟨callersOf_pairwise _ f, fun name => mem_callersOf⟩

end CodeSurvey.Survey
