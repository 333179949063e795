import CodeSurvey.Proofs.Aggregates
import CodeSurvey.Proofs.FirstElements

/-!
# Manifests at the root

Of the manifests of a kind only those count that lie closest to the root. So a manifest that is
nested deeper than another of its kind changes nothing, whatever it holds. Of what the manifests
that count declare, the first record of each package is kept.

- `counted`: the manifests of a kind that count, in the order in which they are read.
- `counted_insert`: manifests that lie deeper do not count.
- `dependencies_eq`: dependencies in terms of the manifests that count.
- `dependencies_rootmost`: nothing leaks out of nested manifests, and nothing is listed twice.
-/

namespace CodeSurvey.Manifest

variable {files before after : List SourceFile} {extra : SourceFile} {k : ManifestKind}

/-! ## Manifests that count -/

/-- The manifests of a kind. -/
def ofKind (files : List SourceFile) (k : ManifestKind) : List SourceFile :=
  files.filter fun f => manifestKind? f.path == some k

/-- Whether a file lies no deeper than another. -/
def noDeeper (a b : SourceFile) : Bool :=
  decide (depth a.path.toList ≤ depth b.path.toList)

/-- Whether a file comes before another by path. -/
def byPath (a b : SourceFile) : Bool :=
  decide (a.path ≤ b.path)

/-- The manifests of a kind that count, in the order in which they are read: all requirements files
than which none lies less deep, by path, and one file of any other kind, the first than which none
lies closer to the root. -/
def counted (files : List SourceFile) : ManifestKind → List SourceFile
  | .requirements => (leasts noDeeper (ofKind files .requirements)).mergeSort byPath
  | k => (leasts closer (ofKind files k)).take 1

theorem isOrder_noDeeper : IsOrder noDeeper :=
  IsOrder.on (⟨fun _ _ _ => by simpa using Nat.le_trans, fun a b => by simpa using Nat.le_total a b⟩ :
    IsOrder fun a b : Nat => decide (a ≤ b)) _

theorem isOrder_byPath : IsOrder byPath :=
  isOrder_names.on SourceFile.path

/-- What lies deeper does not lie closer to the root. -/
theorem closer_eq_false {f g : SourceFile} (h : depth f.path.toList < depth g.path.toList) :
    closer g f = false := by
  have hgt : compare (depth g.path.toList) (depth f.path.toList) = .gt :=
    Nat.compare_eq_gt.mpr h
  rw [closer, hgt]
  rfl

theorem noDeeper_eq_false {f g : SourceFile} (h : depth f.path.toList < depth g.path.toList) :
    noDeeper g f = false :=
  decide_eq_false (Nat.not_le.mpr h)

/-- A manifest is one of its own kind only. -/
theorem ofKind_insert (hkind : manifestKind? extra.path = some k) (j : ManifestKind) :
    ofKind (before ++ extra :: after) j =
      if j = k then ofKind before j ++ extra :: ofKind after j else ofKind (before ++ after) j := by
  unfold ofKind
  rw [List.filter_append, List.filter_append, List.filter_cons, hkind]
  by_cases hj : j = k
  · simp [hj]
  · simp [hj, Ne.symm hj]

/-- **Nested manifests do not count.** A manifest that lies deeper than another of its kind changes
no choice, wherever it stands among the files. -/
theorem counted_insert (hkind : manifestKind? extra.path = some k)
    (hdeeper : ∃ f ∈ before ++ after, manifestKind? f.path = some k ∧
      depth f.path.toList < depth extra.path.toList) (j : ManifestKind) :
    counted (before ++ extra :: after) j = counted (before ++ after) j := by
  obtain ⟨f, hf, hsame, hdepth⟩ := hdeeper
  -- Among the manifests of its kind it is not one of the least, and among others it is none.
  have hleasts {le : SourceFile → SourceFile → Bool} (hle : IsOrder le)
      (hbehind : le extra f = false) :
      leasts le (ofKind (before ++ extra :: after) j) = leasts le (ofKind (before ++ after) j) := by
    rw [ofKind_insert hkind]
    split
    · rename_i hj
      have hmem : f ∈ ofKind before j ++ ofKind after j := by
        rw [ofKind, ofKind, ← List.filter_append, List.mem_filter]
        exact ⟨hf, by simp [hsame, hj]⟩
      rw [leasts_insert hle hmem hbehind, ofKind, ofKind, ← List.filter_append]
      rfl
    · rfl
  cases j with
  | requirements =>
    rw [counted, counted, hleasts isOrder_noDeeper (noDeeper_eq_false hdepth)]
  | package | project =>
    exact congrArg (List.take 1) (hleasts isOrder_closer (closer_eq_false hdepth))

/-! ## Choices -/

/-- The file closest to the root is the first than which none lies closer. -/
theorem closest?_eq (files : List SourceFile) :
    (closest? files).toList = (leasts closer files).take 1 := by
  rw [closest?, head?_mergeSort isOrder_closer]
  cases leasts closer files <;> rfl

/-- The shallowest files are those than which none lies less deep. -/
theorem shallowest_eq (files : List SourceFile) :
    shallowest files = (leasts noDeeper files).mergeSort byPath := by
  have hsort : (fun a b : SourceFile => decide (a.path ≤ b.path)) = byPath := rfl
  unfold shallowest
  rw [hsort]
  dsimp only
  split
  · rename_i least hleast
    obtain ⟨hmem, hbound⟩ := List.min?_eq_some_iff.mp hleast
    rw [filter_mergeSort isOrder_byPath, leasts]
    congr 1
    refine List.filter_congr fun f hf => ?_
    -- A file lies at the least depth exactly if none lies less deep.
    obtain ⟨g, hg, hdepth⟩ := List.mem_map.mp hmem
    have hf' := hbound _ (List.mem_map_of_mem hf)
    rw [Bool.eq_iff_iff, beq_iff_eq, List.all_eq_true]
    simp only [noDeeper, decide_eq_true_eq]
    constructor
    · intro heq x hx
      rw [heq]
      exact hbound _ (List.mem_map_of_mem hx)
    · intro hall
      have hfg := hall g hg
      omega
  · rename_i hnone
    have hnil : files = [] := by simpa using hnone
    rw [hnil, leasts, List.filter_nil, List.mergeSort_nil]

/-! ## What manifests declare -/

/-- What a manifest of a kind declares. -/
def ManifestKind.read : ManifestKind → SourceFile → Dependencies
  | package => packageFile
  | project => projectFile
  | requirements => requirementsFile

/-- What the manifests that count declare, one after the other: first the package file, then the
project file, then requirements files. -/
def declarations (files : List SourceFile) : List Dependencies :=
  [ManifestKind.package, .project, .requirements].flatMap fun k => (counted files k).map k.read

/-- Of dependencies that are put together, those for one use are put together. -/
theorem part_foldl {part : Dependencies → List Dependency}
    (happend : ∀ a b, part (a ++ b) = part a ++ part b) (ds : List Dependencies) :
    ∀ first, part (ds.foldl (· ++ ·) first) = part first ++ ds.flatMap part := by
  induction ds with
  | nil => exact fun first => (List.append_nil _).symm
  | cons d ds ih =>
    intro first
    rw [List.foldl_cons, ih, happend, List.flatMap_cons, List.append_assoc]

/-- **Dependencies.** They are what the manifests that count declare, each package once. -/
theorem dependencies_eq (files : List SourceFile) :
    dependencies files =
      ⟨distinctBy Dependency.key ((declarations files).flatMap (·.runtime)),
        distinctBy Dependency.key ((declarations files).flatMap (·.development))⟩ := by
  have hone {part : Dependencies → List Dependency} (hnone : part {} = [])
      (read : SourceFile → Dependencies) (k : ManifestKind) :
      part (((closest? (ofKind files k)).map read).getD {}) =
        (((leasts closer (ofKind files k)).take 1).map read).flatMap part := by
    rw [← closest?_eq]
    cases closest? (ofKind files k) with
    | none => exact hnone
    | some f => simp
  have hall {part : Dependencies → List Dependency} (hnone : part {} = [])
      (happend : ∀ a b, part (a ++ b) = part a ++ part b) :
      part (((closest? (ofKind files .package)).map packageFile).getD {}
          ++ ((closest? (ofKind files .project)).map projectFile).getD {}
          ++ ((shallowest (ofKind files .requirements)).map requirementsFile).foldl (· ++ ·) {}) =
        (declarations files).flatMap part := by
    rw [happend, happend, part_foldl happend, hnone, List.nil_append, hone hnone, hone hnone,
      shallowest_eq, declarations, List.flatMap_assoc]
    simp only [List.flatMap_cons, List.flatMap_nil, List.append_nil, List.append_assoc]
    rfl
  unfold dependencies
  dsimp only
  congr 2
  · exact hall rfl fun _ _ => rfl
  · exact hall rfl fun _ _ => rfl

/-- **Manifests at the root.** A manifest that lies deeper than another of its kind changes nothing,
wherever it stands among the files and whatever it holds. No package is listed twice for one use:
of all records of it the first one is kept, in the order of the manifests. -/
theorem dependencies_rootmost (files : List SourceFile) :
    (∀ before after extra k, before ++ after = files → manifestKind? extra.path = some k →
      (∃ f ∈ files, manifestKind? f.path = some k ∧
        depth f.path.toList < depth extra.path.toList) →
      dependencies (before ++ extra :: after) = dependencies files) ∧
    ((dependencies files).runtime.map Dependency.key).Nodup ∧
    ((dependencies files).development.map Dependency.key).Nodup ∧
    (dependencies files).runtime =
      firstsBy Dependency.key ((declarations files).flatMap (·.runtime)) ∧
    (dependencies files).development =
      firstsBy Dependency.key ((declarations files).flatMap (·.development)) := by
  refine ⟨?_, ?_, ?_, ?_, ?_⟩
  · rintro before after extra k rfl hkind hdeeper
    have hcounted := counted_insert hkind hdeeper
    rw [dependencies_eq, dependencies_eq, declarations, declarations]
    simp only [hcounted]
  · rw [dependencies_eq]
    exact nodup_keys_distinctBy _ _
  · rw [dependencies_eq]
    exact nodup_keys_distinctBy _ _
  · rw [dependencies_eq]
    exact distinctBy_eq_firstsBy _ _
  · rw [dependencies_eq]
    exact distinctBy_eq_firstsBy _ _

/-- A package file in a package of the workspace, and requirements that repeat a package of the
project file. -/
theorem dependencies_rootmost_workspace :
    let root : List SourceFile := [
      { path := "requirements.txt", content := "flask==2.3\nhttpx\n" },
      { path := "package.json", content := "\x7b\"dependencies\": \x7b\"next\": \"14\"\x7d\x7d" },
      { path := "pyproject.toml", content := "[project]\ndependencies = [\"flask>=2\"]\n" }]
    let nested : SourceFile := {
      path := "packages/ui/package.json"
      content := "\x7b\"dependencies\": \x7b\"react\": \"18\"\x7d\x7d" }
    dependencies (nested :: root) = dependencies root ∧
      (dependencies root).runtime.map (fun d => (d.ecosystem, d.name, d.version, d.sourceFile)) = [
        (.npm, "next", "14", "package.json"), (.pypi, "flask", ">=2", "pyproject.toml"),
        (.pypi, "httpx", "*", "requirements.txt")] := by
  intro root nested
  have hkind : manifestKind? nested.path = some .package := by decide +kernel
  have hdeeper : ∃ f ∈ root, manifestKind? f.path = some .package ∧
      depth f.path.toList < depth nested.path.toList := by
    refine ⟨_, List.mem_cons_of_mem _ List.mem_cons_self, ?_, ?_⟩ <;> decide +kernel
  refine ⟨(dependencies_rootmost root).1 [] root nested .package rfl hkind hdeeper, ?_⟩
  decide +kernel

end CodeSurvey.Manifest
