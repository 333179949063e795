import CodeSurvey.Metrics.Architecture
import Mathlib.Data.List.Basic

/-!
# What markers find

Files are asked one after the other about the markers that none before them has given away. A marker
that is given away is struck from the list, so it is not asked about again, and once the list is
empty no file is asked. None of this changes what is found: a name is found if some marker of the
name fits some file. The order of the files and how often they come do not count.

- `Detection.askAll_eq`: what one file strikes and what it gives away.
- `Detection.mem_run_found`: what is found in all files.
- `mem_detect`, `detect_congr`, `detect_append_eq_nil`: names that are found.
- `detect_givenAway`: the names in order, and what more files do to them.
-/

namespace CodeSurvey.Metrics

variable {markers : List Marker} {files files' : List SourceFile} {name : String}

/-- Some marker of a name fits some file. -/
def GivenAway (markers : List Marker) (files : List SourceFile) (name : String) : Prop :=
  ∃ m ∈ markers, m.name = name ∧ ∃ file ∈ files, m.fitsFile file = true

instance : DecidablePred (GivenAway markers files) :=
  fun _ => inferInstanceAs (Decidable (∃ m ∈ markers, _))

theorem GivenAway.mono (h : GivenAway markers files name) (hfiles : files ⊆ files') :
    GivenAway markers files' name := by
  obtain ⟨m, hm, hname, file, hfile, hfits⟩ := h
  exact ⟨m, hm, hname, file, hfiles hfile, hfits⟩

/-! ## One file -/

theorem Detection.ask_eq (file : SourceFile) (d : Detection) (m : Marker) :
    ask (Files.anchoredLower file.path.toList) file.content.toList d m =
      if m.fitsFile file then ⟨d.remaining.erase m, m.name :: d.found⟩ else d :=
  rfl

/-- The markers that a file is asked about are struck if they fit. Those before them have been asked
about already and did not, so what is struck is the marker itself. The induction is on the markers
still to be asked about. -/
theorem Detection.foldl_ask (file : SourceFile) (asked : List Marker) :
    ∀ (kept : List Marker) (found : List String), (∀ m ∈ kept, m.fitsFile file = false) →
      asked.foldl (ask (Files.anchoredLower file.path.toList) file.content.toList)
          ⟨kept ++ asked, found⟩ =
        ⟨kept ++ asked.filter (!·.fitsFile file),
          ((asked.filter (·.fitsFile file)).map (·.name)).reverse ++ found⟩ := by
  induction asked with
  | nil => exact fun kept found _ => rfl
  | cons m asked ih =>
    intro kept found hkept
    rw [List.foldl_cons]
    by_cases hfits : m.fitsFile file = true
    · have hnew : m ∉ kept := by
        intro hm
        rw [hkept m hm] at hfits
        contradiction
      rw [ask_eq, if_pos hfits, List.erase_append_right _ hnew, List.erase_cons_head,
        ih kept (m.name :: found) hkept]
      simp [hfits]
    · have hkept' : ∀ m' ∈ kept ++ [m], m'.fitsFile file = false := by
        intro m' hm'
        rcases List.mem_append.mp hm' with hm' | hm'
        · exact hkept m' hm'
        · rw [List.mem_singleton.mp hm', Bool.eq_false_iff]
          exact hfits
      rw [ask_eq, if_neg hfits, List.append_cons, ih (kept ++ [m]) found hkept']
      simp [hfits]

/-- **One file** strikes the markers that fit it and gives their names away. -/
theorem Detection.askAll_eq (d : Detection) (file : SourceFile) :
    d.askAll file = ⟨d.remaining.filter (!·.fitsFile file),
      ((d.remaining.filter (·.fitsFile file)).map (·.name)).reverse ++ d.found⟩ :=
  foldl_ask file d.remaining [] d.found (by simp)

/-! ## All files -/

/-- **All files.** A name is found if it was found before or some marker of the name that remained
fits some file. The induction is on the files: what the first one gives away need not be given away
by another. -/
theorem Detection.mem_run_found {d : Detection} :
    name ∈ (d.run files).found ↔ name ∈ d.found ∨ GivenAway d.remaining files name := by
  induction files generalizing d with
  | nil => simp [run, GivenAway]
  | cons file rest ih =>
    rw [run]
    split
    · -- Nothing remains, so no file can give anything away.
      rename_i hempty
      simp [GivenAway, List.isEmpty_iff.mp hempty]
    · rw [ih, askAll_eq, List.mem_append, List.mem_reverse, List.mem_map]
      constructor
      · rintro ((⟨m, hm, hname⟩ | hfound) | ⟨m, hm, hname, later, hlater, hfits⟩)
        · obtain ⟨hm, hfits⟩ := List.mem_filter.mp hm
          exact .inr ⟨m, hm, hname, file, List.mem_cons_self, hfits⟩
        · exact .inl hfound
        · have hremained := (List.mem_filter.mp hm).1
          exact .inr ⟨m, hremained, hname, later, List.mem_cons_of_mem _ hlater, hfits⟩
      · rintro (hfound | ⟨m, hm, hname, later, hlater, hfits⟩)
        · exact .inl (.inr hfound)
        · -- A marker that is struck here has given its name away.
          by_cases hfirst : m.fitsFile file = true
          · exact .inl (.inl ⟨m, List.mem_filter.mpr ⟨hm, hfirst⟩, hname⟩)
          · have hremains : m ∈ d.remaining.filter (!·.fitsFile file) := by simp [hm, hfirst]
            rcases List.mem_cons.mp hlater with rfl | hlater
            · exact absurd hfits hfirst
            · exact .inr ⟨m, hremains, hname, later, hlater, hfits⟩

/-! ## Names that are found -/

theorem detect_eq (markers : List Marker) (files : List SourceFile) :
    detect markers files = (markers.map (·.name)).filter (GivenAway markers files ·) := by
  refine List.filter_congr fun name _ => ?_
  rw [Bool.eq_iff_iff, List.contains_iff_mem, Detection.mem_run_found, decide_eq_true_iff]
  simp

/-- A name is found if it is that of a marker that fits some file. -/
theorem mem_detect : name ∈ detect markers files ↔ GivenAway markers files name := by
  rw [detect_eq, List.mem_filter, decide_eq_true_iff, List.mem_map]
  exact and_iff_right_of_imp fun ⟨m, hm, hname, _⟩ => ⟨m, hm, hname⟩

/-- Only the set of files matters. -/
theorem detect_congr (markers : List Marker) {files files' : List SourceFile}
    (h : ∀ file, file ∈ files ↔ file ∈ files') : detect markers files = detect markers files' := by
  have hgiven : GivenAway markers files = GivenAway markers files' := by
    funext name
    simp only [GivenAway, h]
  simp only [detect_eq, hgiven]

/-- Two lists of files give nothing away if neither does. -/
theorem detect_append_eq_nil {markers : List Marker} {files others : List SourceFile} :
    detect markers (files ++ others) = [] ↔
      detect markers files = [] ∧ detect markers others = [] := by
  simp only [List.eq_nil_iff_forall_not_mem, mem_detect]
  constructor
  · intro h
    exact ⟨fun name hgiven => h name (hgiven.mono (List.subset_append_left _ _)),
      fun name hgiven => h name (hgiven.mono (List.subset_append_right _ _))⟩
  · rintro ⟨hfiles, hothers⟩ name ⟨m, hm, hname, file, hfile, hfits⟩
    rcases List.mem_append.mp hfile with hfile | hfile
    · exact hfiles name ⟨m, hm, hname, file, hfile, hfits⟩
    · exact hothers name ⟨m, hm, hname, file, hfile, hfits⟩

/-- **What is found** are, in the order of the markers, the names of those for which some marker of
the same name fits some file. Files that are added, at any place, take no name away. -/
theorem detect_givenAway (markers : List Marker) :
    (∀ files, detect markers files =
      (markers.filter fun m => GivenAway markers files m.name).map (·.name)) ∧
    ∀ before added after, (detect markers (before ++ after)).Sublist
      (detect markers (before ++ added ++ after)) := by
  constructor
  · intro files
    rw [detect_eq, List.filter_map]
    rfl
  · intro before added after
    rw [detect_eq, detect_eq]
    apply List.monotone_filter_right
    intro name hgiven
    rw [decide_eq_true_iff] at hgiven ⊢
    apply hgiven.mono
    intro file hfile
    rw [List.mem_append, List.mem_append]
    exact (List.mem_append.mp hfile).imp_left Or.inl

end CodeSurvey.Metrics
