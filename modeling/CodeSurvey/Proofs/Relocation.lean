import CodeSurvey.Files.Selection
import Mathlib.Data.List.Basic
import Mathlib.Data.List.Infix

/-!
# Where a tree lives

Patterns are asked about whole paths, the way to the directory included. What is read from a tree is
the same wherever it lives, as long as no pattern finds anything in that way.

- `excludedBy_within`: a pattern that overlooks two directories says the same of what lies in them.
- `Selection.load_relocated`: a tree gives the same files in two places that no pattern looks at.
- `Selection.load_eq_nil`: a tree gives no files where a pattern names a directory on the way to it.
-/

namespace CodeSurvey.Files

open Text

/-! ## Paths below a directory -/

namespace Path

/-- Whether a path starts at the root of the disk. -/
def IsAbsolute (p : Path) : Prop :=
  p.root.getLast? = some '/'

instance (p : Path) : Decidable p.IsAbsolute :=
  inferInstanceAs (Decidable (p.root.getLast? = some '/'))

/-- The path to which a way leads from a directory. -/
def within (p : Path) (way : Names) : Path :=
  { p with names := p.names ++ way.map String.toList }

/-- What is written of a directory in front of what lies in it. -/
def lead (p : Path) : List Char :=
  p.root ++ p.names.flatMap fun name => name ++ ['/']

variable {p : Path} {way : Names}

@[simp] theorem within_nil : p.within [] = p := by
  simp [within]

@[simp] theorem within_child (name : String) :
    (p.within way).child name.toList = p.within (way ++ [name]) := by
  simp [within, child]

/-- What lies below a directory has a name of its own. -/
theorem name_within (hway : way ≠ []) :
    (p.within way).name = (way.getLast hway).toList := by
  have hlast : (way.map String.toList).getLast? = some (way.getLast hway).toList := by
    rw [List.getLast?_map, List.getLast?_eq_some_getLast hway, Option.map_some]
  rw [name, within, List.getLast?_append, hlast]
  rfl

theorem parts_within : (p.within way).parts = p.parts ++ way.map String.toList := by
  unfold parts within
  cases p.root.isEmpty <;> simp

/-- Joining goes on after a list of names as after a lead. -/
theorem join_append (names : List (List Char)) {further : List (List Char)} (h : further ≠ []) :
    join ['/'] (names ++ further) = (names.flatMap fun name => name ++ ['/']) ++
      join ['/'] further := by
  induction names with
  | nil => simp
  | cons name rest ih =>
    have hrest : rest ++ further ≠ [] := by simp [h]
    obtain ⟨next, others, hnext⟩ := List.exists_cons_of_ne_nil hrest
    rw [List.flatMap_cons, List.append_assoc, ← ih, List.cons_append, hnext]
    simp [join, List.intercalate]

/-- The written form of what lies below a directory. -/
theorem text_within (habs : p.IsAbsolute) (hway : way ≠ []) :
    (p.within way).text = p.lead ++ join ['/'] (way.map String.toList) := by
  have hroot : p.root ≠ [] := by
    intro h
    rw [IsAbsolute, h] at habs
    contradiction
  have htext : (p.within way).root ++ join ['/'] (p.within way).names =
      p.lead ++ join ['/'] (way.map String.toList) := by
    rw [within, lead, join_append _ (by simpa using hway), List.append_assoc]
  have hne : (p.lead ++ join ['/'] (way.map String.toList)).isEmpty = false := by
    simp [lead, hroot]
  simp only [text, htext, hne, Bool.false_eq_true, if_false]

/-- The way to a directory ends with a slash. -/
theorem lead_eq_concat (habs : p.IsAbsolute) : ∃ front, p.lead = front ++ ['/'] := by
  rcases List.eq_nil_or_concat p.names with hnames | ⟨names, name, hnames⟩
  · obtain ⟨front, hfront⟩ := List.getLast?_eq_some_iff.mp habs
    exact ⟨front, by rw [lead, hnames, hfront]; simp⟩
  · refine ⟨p.root ++ names.flatMap (fun name => name ++ ['/']) ++ name, ?_⟩
    rw [lead, hnames]
    simp

end Path

/-! ## Patterns -/

/-- Whether a pattern finds nothing in the way to a directory: no component that it names, and no
end that it could go on from. The slash at the end of the way tells nothing, every way has it. -/
def overlooks (root : Path) (pattern : List Char) : Bool :=
  match pattern with
  | '*' :: rest =>
    rest.contains '*' || rest.inits.all fun part => part.length < 2 || !endsWith root.lead part
  | _ => !root.parts.contains pattern

/-- The end of a path that goes past all that lies below a directory would end in the way to it. -/
theorem endsWith_lead {root : Path} (habs : root.IsAbsolute) (inner rest : List Char)
    (hrest : ∀ part ∈ rest.inits, 2 ≤ part.length → endsWith root.lead part = false) :
    endsWith (root.lead ++ inner) rest = endsWith ('/' :: inner) rest := by
  obtain ⟨front, hfront⟩ := Path.lead_eq_concat habs
  have hlead : root.lead ++ inner = front ++ '/' :: inner := by
    rw [hfront, List.append_assoc, List.singleton_append]
  rw [Bool.eq_iff_iff]
  unfold endsWith
  rw [List.isSuffixOf_iff_suffix, List.isSuffixOf_iff_suffix]
  constructor
  · intro h
    by_cases hshort : rest.length ≤ inner.length + 1
    · rw [hlead] at h
      exact List.suffix_of_suffix_length_le h (List.suffix_append _ _) (by simpa using hshort)
    · -- What is left of the pattern in front of `inner` is longer than the slash.
      obtain ⟨part, hpart⟩ : inner <:+ rest :=
        List.suffix_of_suffix_length_le (List.suffix_append _ _) h (by omega)
      obtain ⟨start, hstart⟩ := h
      rw [← hpart, ← List.append_assoc] at hstart
      have hend : part <:+ root.lead := ⟨start, List.append_cancel_right hstart⟩
      have hno := hrest part ((List.mem_inits _ _).mpr ⟨inner, hpart⟩) (by
        rw [← hpart, List.length_append] at hshort
        omega)
      rw [endsWith, Bool.eq_false_iff, ne_eq, List.isSuffixOf_iff_suffix] at hno
      exact absurd hend hno
  · intro h
    rw [hlead]
    exact h.trans (List.suffix_append _ _)

/-- **Overlooking.** A pattern that overlooks two directories says the same of what lies in them. -/
theorem excludedBy_within {first second : Path} (hfirst : first.IsAbsolute)
    (hsecond : second.IsAbsolute) {pattern : List Char} (hover : overlooks first pattern)
    (hover' : overlooks second pattern) {way : Names} (hway : way ≠ []) :
    excludedBy (first.within way) pattern = excludedBy (second.within way) pattern := by
  unfold excludedBy
  split
  next rest =>
    cases hstar : rest.contains '*' with
    | true => simp only [if_true, Path.name_within hway]
    | false =>
      -- Under either directory the end of the path is sought in what lies below it.
      have hbelow {root : Path} (habs : root.IsAbsolute) (h : overlooks root ('*' :: rest)) :
          endsWith (root.within way).text rest =
            endsWith ('/' :: join ['/'] (way.map String.toList)) rest := by
        simp only [overlooks, hstar, Bool.false_or] at h
        rw [Path.text_within habs hway]
        apply endsWith_lead habs
        intro part hpart hlong
        have hpart := List.all_eq_true.mp h part hpart
        simpa [Nat.not_lt.mpr hlong] using hpart
      simp only [Bool.false_eq_true, if_false]
      rw [hbelow hfirst hover, hbelow hsecond hover']
  next hplain =>
    -- A pattern without a star names a part of the path, and no part of the way to either
    -- directory.
    have hbelow {root : Path} (h : overlooks root pattern) :
        (root.within way).parts.contains pattern = (way.map String.toList).contains pattern := by
      have hnot : pattern ∉ root.parts := by
        unfold overlooks at h
        split at h
        · exact absurd rfl (hplain _)
        · simpa using h
      simp [Path.parts_within, hnot]
    rw [hbelow hover, hbelow hover']

/-- A pattern that names a component of the way to a directory excludes all that lies in it. -/
theorem excludedBy_of_named {root : Path} {pattern : List Char} (hplain : pattern.head? ≠ some '*')
    (hnamed : pattern ∈ root.parts) (way : Names) : excludedBy (root.within way) pattern := by
  unfold excludedBy
  split
  · exact absurd rfl hplain
  · simp [Path.parts_within, hnamed]

/-! ## Walks -/

namespace Selection

variable {s : Selection}

/-- Whether every pattern overlooks a directory. -/
def Overlooks (s : Selection) (root : Path) : Prop :=
  ∀ pattern ∈ s.patterns, overlooks root pattern

instance (s : Selection) (root : Path) : Decidable (s.Overlooks root) :=
  inferInstanceAs (Decidable (∀ pattern ∈ s.patterns, _))

/-- Where every pattern overlooks two directories, the same is left out below both. -/
theorem leavesOut_within {first second : Path} (hfirst : first.IsAbsolute)
    (hsecond : second.IsAbsolute) (hover : s.Overlooks first) (hover' : s.Overlooks second)
    {way : Names} (hway : way ≠ []) :
    s.leavesOut (first.within way) = s.leavesOut (second.within way) := by
  unfold leavesOut excluded
  rw [Bool.eq_iff_iff, List.any_eq_true, List.any_eq_true]
  apply exists_congr
  intro pattern
  apply and_congr_right
  intro hpattern
  rw [excludedBy_within hfirst hsecond (hover pattern hpattern) (hover' pattern hpattern) hway]

mutual

/-- A walk asks nothing of its path but what is left out and the last name. -/
theorem visit_within {first second : Path}
    (hsame : ∀ way : Names, way ≠ [] →
      s.leavesOut (first.within way) = s.leavesOut (second.within way))
    {way : Names} (hway : way ≠ []) : ∀ e : Entry,
    s.visit (first.within way) way e = s.visit (second.within way) way e
  | .file bytes => by
    rw [visit, visit, hsame way hway, Path.name_within hway, Path.name_within hway]
  | .directory entries => by
    rw [visit, visit, hsame way hway, visitAll_within hsame way entries]

theorem visitAll_within {first second : Path}
    (hsame : ∀ way : Names, way ≠ [] →
      s.leavesOut (first.within way) = s.leavesOut (second.within way))
    (way : Names) : ∀ entries : List (String × Entry),
    s.visitAll (first.within way) way entries = s.visitAll (second.within way) way entries
  | [] => by rw [visitAll, visitAll]
  | (name, e) :: rest => by
    rw [visitAll, visitAll, Path.within_child, Path.within_child, visit_within hsame (by simp) e,
      visitAll_within hsame way rest]

end

/-- Where everything is left out, nothing is contributed. -/
theorem files_of_visitAll {path : Path} {way : Names}
    (hout : ∀ name : String, s.leavesOut (path.child name.toList)) :
    ∀ entries : List (String × Entry), ∀ c ∈ s.visitAll path way entries,
      c.2 = .file [] ∨ c.2 = .directory []
  | [], c, hc => by
    rw [visitAll] at hc
    contradiction
  | (name, e) :: rest, c, hc => by
    rw [visitAll, List.mem_cons] at hc
    rcases hc with rfl | hc
    · cases e with
      | file bytes => exact .inl (by simp [visit, hout])
      | directory entries => exact .inr (by simp [visit, hout])
    · exact files_of_visitAll hout rest c hc

/-- Entries that contribute nothing are arranged to nothing. -/
theorem arranged_eq_nil {entries : List (String × Contribution)}
    (h : ∀ c ∈ entries, c.2 = .file [] ∨ c.2 = .directory []) : arranged entries = [] := by
  have hsorted (c : String × Contribution)
      (hc : c ∈ entries.mergeSort fun a b => decide (a.1 ≤ b.1)) :
      c.2 = .file [] ∨ c.2 = .directory [] :=
    h c (List.mem_mergeSort.mp hc)
  unfold arranged
  simp only [List.append_eq_nil_iff, List.flatten_eq_nil_iff, List.mem_filterMap]
  -- Files and directories are picked out of the same sorted entries.
  constructor
  all_goals
    rintro files ⟨⟨name, c⟩, hc, hfiles⟩
    rcases hsorted _ hc with rfl | rfl <;> simp_all

/-! ## Trees -/

/-- **Relocation.** A tree gives the same files in two places if no pattern finds anything in the
ways to them. -/
theorem load_relocated {first second : Path} (hfirst : first.IsAbsolute)
    (hsecond : second.IsAbsolute) (hover : s.Overlooks first) (hover' : s.Overlooks second)
    (e : Entry) : s.load first e = s.load second e := by
  cases e with
  | file bytes => rfl
  | directory entries =>
    have hvisits := visitAll_within
      (fun way hway => leavesOut_within hfirst hsecond hover hover' hway) [] entries
    rw [Path.within_nil, Path.within_nil] at hvisits
    rw [load, load, hvisits]

/-- The default patterns do not look at these two places. -/
theorem load_relocated_standard :
    let s : Selection := ⟨defaultExclude.map String.toList, [], none⟩
    let home : Path := .ofText "/home/me/shop".toList
    let work : Path := .ofText "/srv/checkout/shop-2".toList
    (home.IsAbsolute ∧ work.IsAbsolute ∧ s.Overlooks home ∧ s.Overlooks work) ∧
      ∀ e, s.load home e = s.load work e := by
  intro s home work
  have hhome : home.IsAbsolute := by decide +kernel
  have hwork : work.IsAbsolute := by decide +kernel
  have hover : s.Overlooks home := by decide +kernel
  have hover' : s.Overlooks work := by decide +kernel
  exact ⟨⟨hhome, hwork, hover, hover'⟩, load_relocated hhome hwork hover hover'⟩

/-- **Named directories.** A tree gives no files where a pattern names a component of the way to
it. -/
theorem load_eq_nil {root : Path} {pattern : List Char} (hpattern : pattern ∈ s.patterns)
    (hplain : pattern.head? ≠ some '*') (hnamed : pattern ∈ root.parts) (e : Entry) :
    s.load root e = [] := by
  cases e with
  | file bytes => rfl
  | directory entries =>
    rw [load]
    apply arranged_eq_nil
    apply files_of_visitAll
    intro name
    have hchild : root.child name.toList = root.within [name] := by
      rw [← Path.within_nil (p := root), Path.within_child, Path.within_nil]
      rfl
    rw [hchild, leavesOut, excluded, List.any_eq_true]
    exact ⟨pattern, hpattern, excludedBy_of_named hplain hnamed [name]⟩

/-- Under the default patterns a tree is read in one place and not in another, which happens to be
named like a directory that is left out. -/
theorem load_depends_on_place :
    let s : Selection := ⟨defaultExclude.map String.toList, [], none⟩
    let e : Entry := .directory [("a.ts", .file ByteArray.empty)]
    s.load (.ofText "/work/shop".toList) e = [⟨"a.ts", "", none⟩] ∧
      s.load (.ofText "/build/shop".toList) e = [] := by
  intro s e
  constructor
  · have hkept : s.leavesOut ((Path.ofText "/work/shop".toList).child "a.ts".toList) = false := by
      decide +kernel
    have hread : s.admits ((Path.ofText "/work/shop".toList).child "a.ts".toList).name
        ByteArray.empty = true := by
      decide +kernel
    have hvisit : s.visitAll (.ofText "/work/shop".toList) [] [("a.ts", .file ByteArray.empty)] =
        [("a.ts", .file [⟨"a.ts", "", none⟩])] := by
      have hempty : decode ByteArray.empty = [] := by decide +kernel
      rw [visitAll, visitAll, visit, hkept, hread, hempty]
      rfl
    rw [load, hvisit, arranged, List.mergeSort_singleton]
    rfl
  · have hnamed : "build".toList ∈ s.patterns := by decide
    apply load_eq_nil hnamed
    all_goals decide +kernel

end Selection

end CodeSurvey.Files
