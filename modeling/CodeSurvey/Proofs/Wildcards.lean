import CodeSurvey.Files.Path
import CodeSurvey.Proofs.LineFeeds
import CodeSurvey.Proofs.LineViews
import Mathlib.Data.List.Infix

/-!
# Patterns with two stars

A pattern with two stars stands for the names in which the text between the stars occurs and that
end with the text behind them. The two texts are looked for apart from each other, so they may share
characters of a name, and then nothing in it is left for the second star to stand for.

- `Spells`: the names that such a pattern spells; `RunsTogether`: the names in which the two texts
  share characters.
- `excluded_wildcards_iff`: which names a pattern excludes.
- `Overlap`: texts that can share characters; `exists_misjudged`: then some name shows it.
- `excluded_wildcards`: for which patterns the names are those that the pattern spells.
- `wildcards_share_point`: a name that a pattern excludes and does not spell.
-/

namespace CodeSurvey.Files

open Text

variable {first last name : List Char}

/-! ## Names -/

/-- Names that an entry of a directory can have. -/
structure IsFileName (name : List Char) : Prop where
  nonempty : name ≠ []
  notHere : name ≠ ['.']
  slashless : '/' ∉ name

instance (name : List Char) : Decidable (IsFileName name) :=
  decidable_of_iff (name ≠ [] ∧ name ≠ ['.'] ∧ '/' ∉ name)
    ⟨fun h => ⟨h.1, h.2.1, h.2.2⟩, fun h => ⟨h.nonempty, h.notHere, h.slashless⟩⟩

/-- A name as a path has itself for its last component. -/
theorem IsFileName.name_ofText (h : IsFileName name) : (Path.ofText name).name = name := by
  have hparts : splitAt '/' name = [name] := splitAt_eq_singleton h.slashless
  simp [Path.name, Path.ofText, hparts, h.nonempty, h.notHere]

/-! ## What a pattern spells -/

/-- The pattern with one star before the first text and one between the two. -/
def wildcards (first last : List Char) : List Char :=
  '*' :: (first ++ '*' :: last)

/-- Whether a name can be written with something in place of each star. -/
def Spells (first last name : List Char) : Prop :=
  ∃ front middle, name = front ++ first ++ middle ++ last

/-- Whether a name ends with the last text, and the first one occurs so late that it reaches into
that end. -/
def RunsTogether (first last name : List Char) : Prop :=
  ∃ front back, name = front ++ first ++ back ∧ back.length < last.length ∧ last <:+ name

/-- **Two stars.** A pattern excludes a name if it spells it, or if its two texts share characters
of the name. -/
theorem excluded_wildcards_iff (hname : IsFileName name) (hstar : '*' ∉ first) :
    excluded (.ofText name) [wildcards first last] = true ↔
      Spells first last name ∨ RunsTogether first last name := by
  have hfirst : beforeFirst '*' (first ++ '*' :: last) = first := by
    rw [beforeFirst_append_of_notMem hstar, beforeFirst_cons_self, List.append_nil]
  have hlast : (first ++ '*' :: last).drop (first.length + 1) = last := by
    rw [← List.drop_drop, List.drop_left]
    rfl
  have hexcluded : excluded (.ofText name) [wildcards first last] = true ↔
      first <:+: name ∧ last <:+ name := by
    have hinner : (first ++ '*' :: last).contains '*' = true := by simp
    simp only [excluded, wildcards, List.any_cons, List.any_nil, Bool.or_false, excludedBy, hinner,
      if_true, hfirst, hlast, hname.name_ofText, Bool.and_eq_true]
    rw [endsWith, List.isSuffixOf_iff_suffix, contains_iff_infix]
  rw [hexcluded]
  constructor
  · rintro ⟨⟨front, back, hoccurs⟩, hends⟩
    by_cases hlength : back.length < last.length
    · exact .inr ⟨front, back, hoccurs.symm, hlength, hends⟩
    · -- The last text lies in what is behind the first one.
      have hback : back <:+ name := ⟨front ++ first, hoccurs⟩
      obtain ⟨middle, rfl⟩ := List.suffix_of_suffix_length_le hends hback (Nat.le_of_not_lt hlength)
      exact .inl ⟨front, middle, by rw [← hoccurs, ← List.append_assoc]⟩
  · rintro (⟨front, middle, rfl⟩ | ⟨front, back, rfl, -, hends⟩)
    · exact ⟨⟨front, middle ++ last, by simp⟩, List.suffix_append _ _⟩
    · exact ⟨⟨front, back, rfl⟩, hends⟩

/-! ## Texts that can share characters -/

/-- Whether two texts can share characters: the first one lies in the last one, or what it ends with
begins the last one. -/
def Overlap (first last : List Char) : Prop :=
  first ≠ [] ∧ first <:+: last ∨ ∃ shared, shared ≠ [] ∧ shared <:+ first ∧ shared <+: last

instance (first last : List Char) : Decidable (Overlap first last) :=
  decidable_of_iff
    (first ≠ [] ∧ first <:+: last ∨ ∃ shared ∈ last.inits, shared ≠ [] ∧ shared <:+ first) (by
      unfold Overlap
      refine or_congr_right (exists_congr fun shared => ?_)
      rw [List.mem_inits]
      tauto)

/-- Two texts that cannot share characters do not run together in a name. -/
theorem RunsTogether.spells_or_overlap (h : RunsTogether first last name) :
    Spells first last name ∨ Overlap first last := by
  obtain ⟨front, back, hname, hlength, start, hends⟩ := h
  rcases List.append_eq_append_iff.mp (hname.symm.trans hends.symm) with
    ⟨gap, rfl, hback⟩ | ⟨shared, hfirst, hlast⟩
  · -- The last text would start behind the first one, where there is no room for it.
    have hgap := congrArg List.length hback
    rw [List.length_append] at hgap
    omega
  · have hshared : shared ≠ [] := by
      rintro rfl
      rw [hlast] at hlength
      simp at hlength
    -- The last text starts within the first one, or in front of it and reaches past it.
    rcases List.append_eq_append_iff.mp hfirst with ⟨rest, rfl, hrest⟩ | ⟨rest, rfl, hrest⟩
    · exact .inr (.inr ⟨shared, hshared, ⟨rest, hrest.symm⟩, ⟨back, hlast.symm⟩⟩)
    · by_cases hempty : first = []
      · exact .inl ⟨start, [], by simp [hempty, ← hends]⟩
      · exact .inr (.inl ⟨hempty, ⟨rest, back, by rw [hlast, hrest]⟩⟩)

/-- A name that is spelled has room for both texts. -/
theorem Spells.length_le (h : Spells first last name) :
    first.length + last.length ≤ name.length := by
  obtain ⟨front, middle, rfl⟩ := h
  simp only [List.length_append]
  omega

/-- Texts that can share characters do so in some text that has no room for both. -/
theorem Overlap.exists_short (h : Overlap first last) :
    ∃ name, name ≠ [] ∧ (∀ c ∈ name, c ∈ first ∨ c ∈ last) ∧ first <:+: name ∧ last <:+ name ∧
      name.length < first.length + last.length := by
  rcases h with ⟨hfirst, hinside⟩ | ⟨shared, hshared, ⟨before, rfl⟩, ⟨behind, rfl⟩⟩
  · have hlength := List.length_pos_of_ne_nil hfirst
    have hlast : last ≠ [] := by
      rintro rfl
      exact hfirst (List.infix_nil.mp hinside)
    exact ⟨last, hlast, fun _ => .inr, hinside, List.suffix_rfl, by omega⟩
  · have hlength := List.length_pos_of_ne_nil hshared
    refine ⟨before ++ shared ++ behind, by simp [hshared], ?_, ⟨[], behind, rfl⟩,
      ⟨before, by simp⟩, ?_⟩
    · intro c hc
      simp only [List.mem_append] at hc ⊢
      tauto
    · simp only [List.length_append]
      omega

/-- If two texts can share characters, some name is excluded that the pattern does not spell. -/
theorem exists_misjudged (hstar : '*' ∉ first) (hfirst : '/' ∉ first) (hlast : '/' ∉ last)
    (h : Overlap first last) : ∃ name, IsFileName name ∧
      excluded (.ofText name) [wildcards first last] = true ∧ ¬Spells first last name := by
  obtain ⟨name, hne, hchars, hoccurs, hends, hshort⟩ := h.exists_short
  by_cases hpoint : name = ['.']
  · -- The point is no name of its own; both texts are the point then.
    subst hpoint
    have hfirstLength := hoccurs.length_le
    have hlastLength := hends.length_le
    simp only [List.length_singleton] at hshort hfirstLength hlastLength
    obtain rfl : first = ['.'] := hoccurs.eq_of_length (by simp only [List.length_singleton]; omega)
    obtain rfl : last = ['.'] := hends.eq_of_length (by simp only [List.length_singleton]; omega)
    refine ⟨"a.".toList, by decide, by decide, ?_⟩
    rintro ⟨front, middle, hname⟩
    have hpoints := congrArg (List.count '.') hname
    simp only [List.count_append, List.count_singleton_self] at hpoints
    have hone : List.count '.' "a.".toList = 1 := by decide
    omega
  · have hname : IsFileName name :=
      ⟨hne, hpoint, fun hslash => (hchars '/' hslash).elim hfirst hlast⟩
    obtain ⟨front, back, hparts⟩ := hoccurs
    have hback : back.length < last.length := by
      have hlength := congrArg List.length hparts
      simp only [List.length_append] at hlength
      omega
    -- The name is too short for both texts one behind the other.
    refine ⟨name, hname, (excluded_wildcards_iff hname hstar).mpr (.inr ?_), fun hspells => ?_⟩
    · exact ⟨front, back, hparts.symm, hback, hends⟩
    · have hroom := hspells.length_le
      omega

/-! ## Patterns with two stars -/

/-- **The names a pattern with two stars stands for.** It excludes the names that it spells and
those in which its texts share characters. They are just the names that it spells if, and only if,
its texts cannot share characters. -/
theorem excluded_wildcards (hstar : '*' ∉ first) (hfirst : '/' ∉ first) (hlast : '/' ∉ last) :
    (∀ name, IsFileName name →
      (excluded (.ofText name) [wildcards first last] = true ↔
        Spells first last name ∨ RunsTogether first last name)) ∧
    ((∀ name, IsFileName name →
      (excluded (.ofText name) [wildcards first last] = true ↔ Spells first last name)) ↔
        ¬Overlap first last) := by
  refine ⟨fun name hname => excluded_wildcards_iff hname hstar, ?_, ?_⟩
  · intro hspells hoverlap
    obtain ⟨name, hname, hexcluded, hnot⟩ := exists_misjudged hstar hfirst hlast hoverlap
    exact hnot ((hspells name hname).mp hexcluded)
  · intro hapart name hname
    rw [excluded_wildcards_iff hname hstar]
    refine ⟨fun h => h.elim id fun hruns => ?_, .inl⟩
    exact hruns.spells_or_overlap.resolve_right hapart

/-- The texts of a pattern for tests cannot share characters, so it excludes just what it spells. -/
theorem excluded_wildcards_test :
    ('*' ∉ ".test".toList ∧ '/' ∉ ".test".toList ∧ '/' ∉ ".ts".toList) ∧
    ∀ name, IsFileName name →
      (excluded (.ofText name) [wildcards ".test".toList ".ts".toList] = true ↔
        Spells ".test".toList ".ts".toList name) := by
  have hstar : '*' ∉ ".test".toList := by decide
  have hfirst : '/' ∉ ".test".toList := by decide
  have hlast : '/' ∉ ".ts".toList := by decide
  have hapart : ¬Overlap ".test".toList ".ts".toList := by decide
  exact ⟨⟨hstar, hfirst, hlast⟩, (excluded_wildcards hstar hfirst hlast).2.mpr hapart⟩

/-- One point cannot be both the text between the stars and the start of the ending, but the name is
excluded. -/
theorem wildcards_share_point :
    IsFileName "app.js".toList ∧
    excluded (.ofText "app.js".toList) [wildcards ".".toList ".js".toList] = true ∧
    ¬Spells ".".toList ".js".toList "app.js".toList := by
  refine ⟨by decide, by decide, ?_⟩
  rintro ⟨front, middle, hname⟩
  have hpoints := congrArg (List.count '.') hname
  simp only [List.count_append] at hpoints
  have hone : List.count '.' "app.js".toList = 1 := by decide
  have hfirst : List.count '.' ".".toList = 1 := by decide
  have hlast : List.count '.' ".js".toList = 1 := by decide
  omega

end CodeSurvey.Files
