import CodeSurvey.Proofs.Braces
import Mathlib.Data.Set.Basic
import Mathlib.Order.Nat

/-!
# Blocks are the smallest balanced ones

A block is looked for by running over the text with a depth. What it comes to can be said without
that run: of all stops at which braces are in balance since the block opened, it takes the first one.

- `openings`, `balancedStops`: where a block may open, and where it may stop.
- `indexFrom?_eq_some_iff`, `indexFrom?_eq_none_iff`: the search for the opening brace.
- `isLeast_stop`, `balancedStops_eq_empty`: what the run over the text says about stops.
- `block_smallest`: the text that is taken.
-/

namespace CodeSurvey.Source

open Text

variable {text : List Char}

/-! ## Places -/

/-- The braces at or after a place, at which a block may open. -/
def openings (text : List Char) (place : Nat) : Set Nat :=
  {opening | place ≤ opening ∧ text[opening]? = some '{'}

/-- The stops, up to a limit, at which as many braces have closed as have opened. -/
def balancedStops (text : List Char) (opening limit : Nat) : Set Nat :=
  {stop | opening < stop ∧ stop ≤ limit ∧
    count '{' (between text opening stop) = count '}' (between text opening stop)}

/-! ## The opening brace -/

theorem indexOf?_singleton (c : Char) (text : List Char) :
    indexOf? [c] text = text.findIdx? (· == c) := by
  induction text with
  | nil => rfl
  | cons d rest ih =>
    rw [indexOf?, List.findIdx?_cons, ih]
    by_cases h : c = d
    · simp [h]
    · simp [h, Ne.symm h]

/-- The search finds the first brace at or after a place. -/
theorem indexFrom?_eq_some_iff {place opening : Nat} :
    indexFrom? ['{'] text place = some opening ↔ IsLeast (openings text place) opening := by
  -- The search counts from the place on, so both sides are compared by how far ahead a brace is.
  have hget (ahead : Nat) : (text.drop place)[ahead]? = text[place + ahead]? :=
    List.getElem?_drop
  rw [indexFrom?, indexOf?_singleton, Option.map_eq_some_iff]
  constructor
  · rintro ⟨ahead, hahead, rfl⟩
    obtain ⟨hlength, hbrace, hbefore⟩ := List.findIdx?_eq_some_iff_getElem.mp hahead
    constructor
    · refine ⟨Nat.le_add_left .., ?_⟩
      rw [Nat.add_comm, ← hget, List.getElem?_eq_getElem hlength]
      exact congrArg some (beq_iff_eq.mp hbrace)
    · rintro other ⟨hplace, hother⟩
      obtain ⟨further, rfl⟩ := Nat.exists_eq_add_of_le hplace
      rw [← hget, List.getElem?_eq_some_iff] at hother
      obtain ⟨_, hother⟩ := hother
      apply Nat.le_of_not_lt
      intro hsooner
      exact hbefore further (by omega) (beq_iff_eq.mpr hother)
  · rintro ⟨⟨hplace, hbrace⟩, hleast⟩
    obtain ⟨ahead, rfl⟩ := Nat.exists_eq_add_of_le hplace
    rw [← hget, List.getElem?_eq_some_iff] at hbrace
    obtain ⟨hlength, hbrace⟩ := hbrace
    refine ⟨ahead, ?_, Nat.add_comm ahead place⟩
    refine List.findIdx?_eq_some_iff_getElem.mpr ⟨hlength, beq_iff_eq.mpr hbrace, ?_⟩
    intro sooner hsooner hother
    have hother : text[place + sooner]? = some '{' := by
      rw [← hget, List.getElem?_eq_getElem (hsooner.trans hlength), beq_iff_eq.mp hother]
    have hle := hleast ⟨Nat.le_add_right .., hother⟩
    omega

/-- The search finds nothing if no brace stands at or after a place. -/
theorem indexFrom?_eq_none_iff {place : Nat} :
    indexFrom? ['{'] text place = none ↔ openings text place = ∅ := by
  classical
  constructor
  · intro hnone
    apply Set.not_nonempty_iff_eq_empty.mp
    intro hopens
    rw [indexFrom?_eq_some_iff.mpr hopens.isLeast_natFind] at hnone
    contradiction
  · intro hempty
    cases hfound : indexFrom? ['{'] text place with
    | none => rfl
    | some opening =>
      have hopening := (indexFrom?_eq_some_iff.mp hfound).1
      rw [hempty] at hopening
      contradiction

/-- What is taken depends on the opening brace alone. -/
theorem block_of_isLeast {start searchFrom opening : Nat} (fallback ceiling : Int)
    (h : IsLeast (openings text (max start searchFrom)) opening) :
    block text start searchFrom fallback ceiling =
      match blockAhead? 0 (between text (opening + 1) (blockLimit text opening ceiling).toNat) with
      | some n => between text start (opening + 1 + n)
      | none => cut text start (blockLimit text opening ceiling) := by
  rw [block, Nat.max_comm, indexFrom?_eq_some_iff.mpr h]
  rfl

/-! ## The stop -/

section Stops

variable {opening limit : Nat}

/-- From its opening brace on, the level of a block is one more than from behind that brace on. -/
theorem level_from_brace (hopening : text[opening]? = some '{') {place : Nat}
    (h : opening < place) :
    level (between text opening place) = 1 + level (between text (opening + 1) place) := by
  rw [level_between text (Nat.le_succ opening) h, level_brace hopening]

/-- Behind its opening brace and before the stop, more braces have opened than have closed. -/
theorem count_lt_of_level {place : Nat} (hopening : text[opening]? = some '{')
    (hbehind : opening < place) (hlevel : 0 ≤ level (between text (opening + 1) place)) :
    count '}' (between text opening place) < count '{' (between text opening place) := by
  have h := level_from_brace hopening hbehind
  rw [level] at h
  omega

/-- **The stop.** A block that closes stops where braces are in balance for the first time. -/
theorem isLeast_stop {n : Nat} (hopening : text[opening]? = some '{')
    (hcloses : blockAhead? 0 (between text (opening + 1) limit) = some n) :
    IsLeast (balancedStops text opening limit) (opening + 1 + n) ∧
      ∀ place, opening < place → place < opening + 1 + n →
        count '}' (between text opening place) < count '{' (between text opening place) := by
  obtain ⟨hlimit, hstop, hlevel⟩ := level_of_closes hcloses
  have hmore (place : Nat) (hbehind : opening < place) (hbefore : place < opening + 1 + n) :=
    count_lt_of_level hopening hbehind (hlevel place hbefore)
  have hbalanced := level_from_brace hopening (by omega : opening < opening + 1 + n)
  rw [hstop, level] at hbalanced
  refine ⟨⟨⟨by omega, hlimit, by omega⟩, ?_⟩, hmore⟩
  rintro stop ⟨hbehind, -, hcounts⟩
  apply Nat.le_of_not_lt
  intro hbefore
  have hmore := hmore stop hbehind hbefore
  omega

/-- A block that does not close is nowhere in balance. -/
theorem balancedStops_eq_empty (hopening : text[opening]? = some '{')
    (hopen : blockAhead? 0 (between text (opening + 1) limit) = none) :
    balancedStops text opening limit = ∅ := by
  apply Set.eq_empty_of_forall_notMem
  rintro stop ⟨hbehind, hlimit, hcounts⟩
  have htake : (between text (opening + 1) limit).take (stop - (opening + 1)) =
      between text (opening + 1) stop := by
    rw [between, between, List.take_take, Nat.min_eq_left (by omega)]
  have hlevel := level_of_not_blockAhead? _ hopen (stop - (opening + 1))
  rw [htake] at hlevel
  have hmore := count_lt_of_level hopening hbehind (by simpa using hlevel)
  omega

end Stops

/-! ## The text that is taken -/

/-- **Blocks.** Where no brace opens at or after both places, a short piece of text is taken.
Otherwise the first such brace opens the block. The text goes up to the first place behind it, no
further than the ceiling, at which as many braces have closed as have opened; before that place more
have opened. Where there is no such place, the text goes up to the ceiling. -/
theorem block_smallest (text : List Char) (start searchFrom ceiling : Nat) (fallback : Int) :
    (openings text (max start searchFrom) = ∅ ∧
      block text start searchFrom fallback ceiling = cut text start (start + fallback)) ∨
    ∃ opening limit, IsLeast (openings text (max start searchFrom)) opening ∧
      limit = min text.length (opening + 1 + ceiling) ∧
      ((∃ stop, IsLeast (balancedStops text opening limit) stop ∧
          block text start searchFrom fallback ceiling = between text start stop ∧
          ∀ place, opening < place → place < stop →
            count '}' (between text opening place) < count '{' (between text opening place)) ∨
        (balancedStops text opening limit = ∅ ∧
          block text start searchFrom fallback ceiling = between text start limit)) := by
  cases hfound : indexFrom? ['{'] text (max start searchFrom) with
  | none =>
    left
    refine ⟨indexFrom?_eq_none_iff.mp hfound, ?_⟩
    rw [block, Nat.max_comm, hfound]
  | some opening =>
    right
    have hleast := indexFrom?_eq_some_iff.mp hfound
    have hopening := hleast.1.2
    have hlimit : blockLimit text opening ceiling =
        (min text.length (opening + 1 + ceiling) : Nat) := by
      unfold blockLimit
      omega
    have hblock := block_of_isLeast fallback ceiling hleast
    rw [hlimit, Int.toNat_natCast] at hblock
    refine ⟨opening, min text.length (opening + 1 + ceiling), hleast, rfl, ?_⟩
    cases hahead : blockAhead? 0
        (between text (opening + 1) (min text.length (opening + 1 + ceiling))) with
    | some n =>
      left
      obtain ⟨hstop, hmore⟩ := isLeast_stop hopening hahead
      rw [hahead] at hblock
      exact ⟨opening + 1 + n, hstop, hblock, hmore⟩
    | none =>
      right
      rw [hahead] at hblock
      refine ⟨balancedStops_eq_empty hopening hahead, ?_⟩
      rw [hblock, cut_ofNat]

end CodeSurvey.Source
