import CodeSurvey.Proofs.Relocation
import CodeSurvey.Proofs.Squeezing
import CodeSurvey.Proofs.StableSort
import CodeSurvey.Proofs.Wildcards

/-!
# Walks through trees

A walk asks the patterns about whole paths and turns back at every directory that one of them
excludes. What it reads can be said without a walk: a file is read if it is a small enough text with
a wanted ending, and no pattern excludes it or a directory on the way to it below the root.

- `Entry.Proper`: the trees that a disk can hold; `Precedes`: the order of a walk.
- `exists_covers`: what a walk reads from an entry, by induction on the tree.
- `leavesOut_within_slashless`: below a root that no pattern excludes, a pattern without slashes
  sees only the way from there.
- `load_flat`: what is read from a tree.
-/

namespace CodeSurvey.Files

open Text

/-! ## Trees -/

/-- Whether a tree is one that a disk can hold: the entries of a directory have names of files, no
two of them the same. -/
inductive Entry.Proper : Entry → Prop
  | file (bytes : ByteArray) : Entry.Proper (.file bytes)
  | directory {entries : List (String × Entry)} (hdistinct : (entries.map (·.1)).Nodup)
      (hnames : ∀ e ∈ entries, IsFileName e.1.toList) (hproper : ∀ e ∈ entries, Entry.Proper e.2) :
      Entry.Proper (.directory entries)

variable {entries : List (String × Entry)} {way : Names} {bytes : ByteArray}

/-- An entry of a directory whose names are distinct is found under its name. -/
theorem lookup_iff_mem (hdistinct : (entries.map (·.1)).Nodup) {name : String} {e : Entry} :
    entries.lookup name = some e ↔ (name, e) ∈ entries := by
  induction entries with
  | nil => simp
  | cons entry rest ih =>
    obtain ⟨key, inner⟩ := entry
    rw [List.map_cons, List.nodup_cons] at hdistinct
    rw [List.lookup_cons, List.mem_cons, Prod.mk.injEq]
    by_cases hkey : name = key
    · subst hkey
      have hrest : (name, e) ∉ rest := fun he => hdistinct.1 (List.mem_map_of_mem (f := (·.1)) he)
      simp [hrest, eq_comm]
    · rw [beq_eq_false_iff_ne.mpr hkey, ih hdistinct.2]
      simp [hkey]

theorem Entry.at?_directory_cons (hdistinct : (entries.map (·.1)).Nodup) {name : String}
    {found : Entry} : (Entry.directory entries).at? (name :: way) = some found ↔
      ∃ e ∈ entries, e.1 = name ∧ e.2.at? way = some found := by
  rw [Entry.at?, Option.bind_eq_some_iff]
  simp only [lookup_iff_mem hdistinct]
  constructor
  · rintro ⟨e, he, hfound⟩
    exact ⟨(name, e), he, rfl, hfound⟩
  · rintro ⟨e, he, rfl, hfound⟩
    exact ⟨e.2, he, hfound⟩

/-- No way leads on from a file, and one leads on from a directory to every file in it. -/
theorem Entry.isDirectory_of_at? {e : Entry} (h : e.at? way = some (.file bytes)) :
    e.isDirectory = true ↔ way ≠ [] := by
  cases e with
  | file inner =>
    cases way with
    | nil => simp [Entry.isDirectory]
    | cons name rest => simp [Entry.at?] at h
  | directory inner =>
    cases way with
    | nil => simp [Entry.at?] at h
    | cons name rest => simp [Entry.isDirectory]

/-- The names that lead through a tree are those of files. -/
theorem Entry.Proper.isFileName {e found : Entry} (h : e.Proper) (hat : e.at? way = some found) :
    ∀ name ∈ way, IsFileName name.toList := by
  -- No names lead on from a file, and the first name in a directory is that of an entry.
  induction h generalizing way with
  | file bytes =>
    cases way with
    | nil => simp
    | cons name rest => simp [Entry.at?] at hat
  | directory hdistinct hnames hproper ih =>
    cases way with
    | nil => simp
    | cons name rest =>
      obtain ⟨e, he, rfl, hrest⟩ := (Entry.at?_directory_cons hdistinct).mp hat
      rw [List.forall_mem_cons]
      exact ⟨hnames e he, ih e he hrest⟩

/-! ## The order of a walk -/

/-- Whether a walk comes to one file before another: in a directory it comes to the files by name,
and then to what lies in the subdirectories, by their names. -/
inductive Precedes : Names → Names → Prop
  /-- Two files of the directory. -/
  | files {name other : String} (h : name < other) : Precedes [name] [other]
  /-- A file of the directory and one of a subdirectory. -/
  | fileFirst (name other : String) {rest : Names} (h : rest ≠ []) :
      Precedes [name] (other :: rest)
  /-- Files of two subdirectories. -/
  | directories {name other : String} {rest rest' : Names} (h : name < other) (hrest : rest ≠ [])
      (hrest' : rest' ≠ []) : Precedes (name :: rest) (other :: rest')
  /-- Files of one subdirectory. -/
  | inside (name : String) {rest rest' : Names} (h : Precedes rest rest') :
      Precedes (name :: rest) (name :: rest')

theorem Precedes.irrefl (way : Names) : ¬Precedes way way := by
  induction way with
  | nil => exact nofun
  | cons name rest ih =>
    intro h
    cases h with
    | files h => exact String.lt_irrefl _ h
    | fileFirst _ _ h => exact h rfl
    | directories h _ _ => exact String.lt_irrefl _ h
    | inside _ h => exact ih h

/-- The entries of a directory as a walk comes to them. -/
def walkOrder (entries : List (String × Entry)) : List (String × Entry) :=
  let sorted := entries.mergeSort fun a b => decide (a.1 ≤ b.1)
  sorted.filter (!·.2.isDirectory) ++ sorted.filter (·.2.isDirectory)

theorem mem_walkOrder {e : String × Entry} : e ∈ walkOrder entries ↔ e ∈ entries := by
  simp only [walkOrder, List.mem_append, List.mem_filter, List.mem_mergeSort]
  cases e.2.isDirectory <;> simp

/-- Of two entries of a directory the first is a file and the second is none, or both are of one
kind and the first has the lesser name. -/
def ComesFirst (a b : String × Entry) : Prop :=
  a.2.isDirectory = false ∧ b.2.isDirectory = true ∨
    a.2.isDirectory = b.2.isDirectory ∧ a.1 < b.1

theorem walkOrder_pairwise (hdistinct : (entries.map (·.1)).Nodup) :
    (walkOrder entries).Pairwise ComesFirst := by
  have hsorted := mergeSort_pairwise_lt Prod.fst hdistinct
  unfold walkOrder
  generalize entries.mergeSort (fun a b => decide (a.1 ≤ b.1)) = sorted at hsorted
  have hfile {a : String × Entry} (ha : a ∈ sorted.filter (!·.2.isDirectory)) :
      a.2.isDirectory = false := by
    simpa using (List.mem_filter.mp ha).2
  have hdirectory {a : String × Entry} (ha : a ∈ sorted.filter (·.2.isDirectory)) :
      a.2.isDirectory = true :=
    (List.mem_filter.mp ha).2
  rw [List.pairwise_append]
  refine ⟨?_, ?_, fun a ha b hb => .inl ⟨hfile ha, hdirectory hb⟩⟩
  · exact (hsorted.filter _).imp_of_mem fun ha hb hab =>
      .inr ⟨(hfile ha).trans (hfile hb).symm, hab⟩
  · exact (hsorted.filter _).imp_of_mem fun ha hb hab =>
      .inr ⟨(hdirectory ha).trans (hdirectory hb).symm, hab⟩

/-- What is found in two entries of a directory comes in the order of the entries. -/
theorem ComesFirst.precedes {a b : String × Entry} {rest rest' : Names} (h : ComesFirst a b)
    (ha : a.2.isDirectory = true ↔ rest ≠ []) (hb : b.2.isDirectory = true ↔ rest' ≠ []) :
    Precedes (a.1 :: rest) (b.1 :: rest') := by
  rcases h with ⟨hfile, hdirectory⟩ | ⟨hkind, hname⟩
  · obtain rfl : rest = [] := by simpa [hfile] using ha
    exact .fileFirst _ _ (hb.mp hdirectory)
  · cases hdirectory : a.2.isDirectory with
    | false =>
      obtain rfl : rest = [] := by simpa [hdirectory] using ha
      obtain rfl : rest' = [] := by simpa [← hkind, hdirectory] using hb
      exact .files hname
    | true => exact .directories hname (ha.mp hdirectory) (hb.mp (hkind ▸ hdirectory))

namespace Selection

variable {s : Selection} {root path : Path}

/-! ## What entries contribute -/

/-- The files that are contributed. -/
def Contribution.files : Contribution → List SourceFile
  | .file files => files
  | .directory files => files

/-- A file as it is read. -/
def sourceOf (way : Names) (bytes : ByteArray) : SourceFile :=
  ⟨"/".intercalate way, String.ofList (decode bytes), none⟩

/-- What an entry contributes if no pattern leaves the entry itself out. -/
def filesBelow (s : Selection) (path : Path) (way : Names) : Entry → List SourceFile
  | .file bytes => if s.admits path.name bytes then [sourceOf way bytes] else []
  | .directory entries => arranged (s.visitAll path way entries)

theorem files_visit (e : Entry) : (s.visit path way e).files =
    if s.leavesOut path then [] else s.filesBelow path way e := by
  cases e with
  | file bytes =>
    rw [visit]
    cases hout : s.leavesOut path <;> cases hadmits : s.admits path.name bytes <;>
      simp [Contribution.files, filesBelow, sourceOf, hadmits]
  | directory entries =>
    rw [visit]
    rfl

theorem visitAll_eq_map (entries : List (String × Entry)) : s.visitAll path way entries =
    entries.map fun e => (e.1, s.visit (path.child e.1.toList) (way ++ [e.1]) e.2) := by
  induction entries with
  | nil => rw [visitAll, List.map_nil]
  | cons e rest ih => rw [visitAll, ih, List.map_cons]

/-- A directory contributes what its entries contribute, in the order of a walk. -/
theorem filesBelow_directory (entries : List (String × Entry)) :
    s.filesBelow path way (.directory entries) = (walkOrder entries).flatMap fun e =>
      (s.visit (path.child e.1.toList) (way ++ [e.1]) e.2).files := by
  have hsorted : (entries.map fun e =>
      (e.1, s.visit (path.child e.1.toList) (way ++ [e.1]) e.2)).mergeSort
        (fun a b => decide (a.1 ≤ b.1)) =
      (entries.mergeSort fun a b => decide (a.1 ≤ b.1)).map fun e =>
        (e.1, s.visit (path.child e.1.toList) (way ++ [e.1]) e.2) := by
    rw [List.map_mergeSort]
    intros
    rfl
  rw [filesBelow, visitAll_eq_map, arranged, hsorted, walkOrder]
  generalize entries.mergeSort (fun a b => decide (a.1 ≤ b.1)) = sorted
  rw [List.flatMap_append]
  congr 1
  -- Files and directories are picked out of the sorted entries alike.
  all_goals
    induction sorted with
    | nil => rfl
    | cons e rest ih =>
      obtain ⟨name, inner⟩ := e
      cases inner <;> simp_all [visit, Entry.isDirectory, Contribution.files]

/-! ## Walks -/

/-- What is read from an entry that is not left out itself: the files that are found, each under the
way that leads to it from the entry. -/
structure Covers (s : Selection) (root : Path) (way : Names) (e : Entry)
    (found : List (Names × ByteArray)) : Prop where
  files : s.filesBelow (root.within way) way e = found.map fun f => sourceOf (way ++ f.1) f.2
  ordered : found.Pairwise fun f g => Precedes f.1 g.1
  mem_iff : ∀ f, f ∈ found ↔ e.at? f.1 = some (.file f.2) ∧
    s.admits (root.within (way ++ f.1)).name f.2 = true ∧
    ∀ front, front ≠ [] → front <+: f.1 → s.leavesOut (root.within (way ++ front)) = false

theorem covers_file (way : Names) (bytes : ByteArray) : s.Covers root way (.file bytes)
    (if s.admits (root.within way).name bytes then [([], bytes)] else []) where
  files := by
    rw [filesBelow]
    split <;> simp
  ordered := by
    split <;> simp
  mem_iff := by
    rintro ⟨inner, content⟩
    cases inner with
    | nil =>
      simp only [Entry.at?, List.append_nil, Option.some.injEq, Entry.file.injEq]
      constructor
      · intro h
        split at h
        · obtain rfl : content = bytes := by simpa using h
          refine ⟨rfl, ‹_›, fun front hne hfront => ?_⟩
          exact absurd (List.prefix_nil.mp hfront) hne
        · contradiction
      · rintro ⟨rfl, hadmits, -⟩
        rw [if_pos hadmits]
        exact List.mem_singleton_self _
    | cons name rest =>
      split <;> simp [Entry.at?]

/-- The fronts of a way are its first name and the fronts of what follows, behind that name. -/
theorem forall_front_cons {P : Names → Prop} {name : String} {rest : Names} :
    (∀ front, front ≠ [] → front <+: name :: rest → P front) ↔
      P [name] ∧ ∀ front, front ≠ [] → front <+: rest → P (name :: front) := by
  constructor
  · intro h
    refine ⟨h [name] (by simp) (by simp), fun front _ hfront => ?_⟩
    exact h (name :: front) (by simp) (List.cons_prefix_cons.mpr ⟨rfl, hfront⟩)
  · rintro ⟨hname, hrest⟩ front hne hfront
    obtain ⟨first, more, rfl⟩ := List.exists_cons_of_ne_nil hne
    obtain ⟨rfl, hmore⟩ := List.cons_prefix_cons.mp hfront
    by_cases hnil : more = []
    · rwa [hnil]
    · exact hrest more hnil hmore

/-- What is found in the entries of a directory that are not left out, put together. -/
def foundIn (s : Selection) (root : Path) (way : Names) (entries : List (String × Entry))
    (found : String × Entry → List (Names × ByteArray)) : List (Names × ByteArray) :=
  (walkOrder entries).flatMap fun e =>
    if s.leavesOut (root.within (way ++ [e.1])) then []
    else (found e).map fun f => (e.1 :: f.1, f.2)

theorem mem_foundIn {found : String × Entry → List (Names × ByteArray)}
    {f : Names × ByteArray} : f ∈ s.foundIn root way entries found ↔
      ∃ e ∈ entries, s.leavesOut (root.within (way ++ [e.1])) = false ∧
        ∃ g ∈ found e, f = (e.1 :: g.1, g.2) := by
  simp only [foundIn, List.mem_flatMap, mem_walkOrder]
  refine exists_congr fun e => and_congr_right fun _ => ?_
  cases s.leavesOut (root.within (way ++ [e.1])) <;> simp [eq_comm]

/-- What is found in the entries of a directory comes in the order of a walk. -/
theorem ordered_foundIn (hdistinct : (entries.map (·.1)).Nodup)
    {found : String × Entry → List (Names × ByteArray)}
    (hfound : ∀ e ∈ entries, s.Covers root (way ++ [e.1]) e.2 (found e)) :
    (s.foundIn root way entries found).Pairwise fun f g => Precedes f.1 g.1 := by
  rw [foundIn, List.pairwise_flatMap]
  constructor
  · intro e he
    split
    · exact .nil
    · rw [List.pairwise_map]
      exact (hfound e (mem_walkOrder.mp he)).ordered.imp fun h => .inside e.1 h
  · -- A file is found under its name alone, what lies in a directory under a longer way.
    have hkind {e : String × Entry} {f : Names × ByteArray} (he : e ∈ walkOrder entries)
        (hf : f ∈ if s.leavesOut (root.within (way ++ [e.1])) then []
          else (found e).map fun f => (e.1 :: f.1, f.2)) :
        ∃ rest, f.1 = e.1 :: rest ∧ (e.2.isDirectory = true ↔ rest ≠ []) := by
      split at hf
      · contradiction
      · obtain ⟨inner, hinner, rfl⟩ := List.mem_map.mp hf
        have hat := ((hfound e (mem_walkOrder.mp he)).mem_iff inner).mp hinner
        exact ⟨inner.1, rfl, Entry.isDirectory_of_at? hat.1⟩
    refine (walkOrder_pairwise hdistinct).imp_of_mem fun {a b} ha hb hab f hf g hg => ?_
    obtain ⟨rest, hrest, hfirst⟩ := hkind ha hf
    obtain ⟨rest', hrest', hsecond⟩ := hkind hb hg
    rw [hrest, hrest']
    exact hab.precedes hfirst hsecond

/-- A file is found in a directory if it is found in one of the entries and that is not left out. -/
theorem mem_foundIn_cons (hdistinct : (entries.map (·.1)).Nodup)
    {found : String × Entry → List (Names × ByteArray)}
    (hfound : ∀ e ∈ entries, s.Covers root (way ++ [e.1]) e.2 (found e)) {name : String}
    {rest : Names} : (name :: rest, bytes) ∈ s.foundIn root way entries found ↔
      (Entry.directory entries).at? (name :: rest) = some (.file bytes) ∧
        s.admits (root.within (way ++ name :: rest)).name bytes = true ∧
        ∀ front, front ≠ [] → front <+: name :: rest →
          s.leavesOut (root.within (way ++ front)) = false := by
  rw [mem_foundIn, Entry.at?_directory_cons hdistinct, forall_front_cons]
  constructor
  · rintro ⟨e, he, hkept, ⟨inner, _⟩, hinner, hparts⟩
    obtain ⟨⟨rfl, rfl⟩, rfl⟩ := by simpa using hparts
    obtain ⟨hat, hadmits, hfronts⟩ := ((hfound e he).mem_iff _).mp hinner
    simp only [List.append_assoc, List.singleton_append] at hadmits hfronts
    exact ⟨⟨e, he, rfl, hat⟩, hadmits, hkept, hfronts⟩
  · rintro ⟨⟨e, he, rfl, hat⟩, hadmits, hkept, hfronts⟩
    refine ⟨e, he, hkept, (rest, bytes), ((hfound e he).mem_iff _).mpr ?_, rfl⟩
    simp only [List.append_assoc, List.singleton_append]
    exact ⟨hat, hadmits, hfronts⟩

/-- One level of a tree: if what is read from each entry is known, so is what is read from the
directory. -/
theorem covers_directory (hdistinct : (entries.map (·.1)).Nodup)
    {found : String × Entry → List (Names × ByteArray)}
    (hfound : ∀ e ∈ entries, s.Covers root (way ++ [e.1]) e.2 (found e)) :
    s.Covers root way (.directory entries) (s.foundIn root way entries found) where
  files := by
    rw [filesBelow_directory, foundIn, List.map_flatMap]
    refine List.flatMap_congr fun e he => ?_
    rw [Path.within_child, files_visit]
    split
    · rfl
    · rw [(hfound e (mem_walkOrder.mp he)).files, List.map_map]
      simp [Function.comp_def]
  ordered := ordered_foundIn hdistinct hfound
  mem_iff := by
    rintro ⟨inner, content⟩
    cases inner with
    | nil => simp [mem_foundIn, Entry.at?]
    | cons name rest => exact mem_foundIn_cons hdistinct hfound

/-- **Walks.** What is read from an entry of a tree is told by the list of the files that are found
in it. The induction is on the tree. -/
theorem exists_covers (s : Selection) (root : Path) {e : Entry} (h : e.Proper) (way : Names) :
    ∃ found, s.Covers root way e found := by
  induction h generalizing way with
  | file bytes => exact ⟨_, covers_file way bytes⟩
  | directory hdistinct _ _ ih =>
    choose! found hfound using fun e he => ih e he (way ++ [e.1])
    exact ⟨_, covers_directory hdistinct hfound⟩

end Selection

/-! ## Patterns without slashes -/

namespace Path

variable {p : Path}

/-- The path that names lead along from wherever it is followed. -/
def ofNames (names : Names) : Path :=
  ⟨[], names.map String.toList⟩

theorem name_ofNames (hway : way ≠ []) : (ofNames way).name = (way.getLast hway).toList :=
  name_within (p := ⟨[], []⟩) hway

/-- The written form of a path is its last name, or that name behind a slash. -/
theorem exists_text (hroot : p.root = [] ∨ p.IsAbsolute) (hnames : p.names ≠ [])
    (hname : p.name ≠ []) : ∃ front, p.text = front ++ p.name ∧
      (front = [] ∨ front.getLast? = some '/') := by
  obtain ⟨before, last, hlast⟩ : ∃ before last, p.names = before ++ [last] :=
    ⟨_, _, (List.dropLast_concat_getLast hnames).symm⟩
  have hlastName : p.name = last := by simp [name, hlast]
  have hjoin : p.root ++ join ['/'] p.names =
      (p.root ++ before.flatMap fun name => name ++ ['/']) ++ p.name := by
    rw [hlast, join_append before (List.cons_ne_nil last []), join_singleton, hlastName,
      List.append_assoc]
  refine ⟨p.root ++ before.flatMap fun name => name ++ ['/'], by simp [text, hjoin, hname], ?_⟩
  rcases List.eq_nil_or_concat before with rfl | ⟨others, other, rfl⟩
  · simpa [IsAbsolute] using hroot
  · exact .inr (by simp)

/-- A text without slashes ends a path if, and only if, it ends the last name. -/
theorem endsWith_text (hroot : p.root = [] ∨ p.IsAbsolute) (hnames : p.names ≠ [])
    (hname : p.name ≠ []) {rest : List Char} (hrest : '/' ∉ rest) :
    endsWith p.text rest = endsWith p.name rest := by
  obtain ⟨front, htext, hfront⟩ := exists_text hroot hnames hname
  rw [htext, Bool.eq_iff_iff, endsWith, endsWith, List.isSuffixOf_iff_suffix,
    List.isSuffixOf_iff_suffix]
  refine ⟨fun h => ?_, fun h => h.trans (List.suffix_append _ _)⟩
  rcases hfront with rfl | hslash
  · exact h
  · obtain ⟨before, rfl⟩ := List.getLast?_eq_some_iff.mp hslash
    rw [List.append_assoc, List.singleton_append] at h
    -- A text that goes past the last name has the slash in it.
    rcases List.suffix_or_suffix_of_suffix h (List.suffix_append before ('/' :: p.name)) with
      hshort | hlong
    · exact (List.suffix_cons_iff.mp hshort).resolve_left fun heq => hrest (by simp [heq])
    · exact absurd (hlong.subset List.mem_cons_self) hrest

end Path

/-- Below a directory whose components it does not name, a pattern without slashes excludes what it
excludes where the way starts from there. -/
theorem excludedBy_within_slashless {root : Path} (habs : root.IsAbsolute) {pattern : List Char}
    (hslash : '/' ∉ pattern) (hroot : excludedBy root pattern = false) (hway : way ≠ [])
    (hnames : ∀ name ∈ way, IsFileName name.toList) :
    excludedBy (root.within way) pattern = excludedBy (.ofNames way) pattern := by
  -- Stars look at the last name only, and other patterns at components.
  have hname : (way.getLast hway).toList ≠ [] := (hnames _ (List.getLast_mem hway)).nonempty
  have hbelow : (root.within way).name = (way.getLast hway).toList := Path.name_within hway
  have hhere : (Path.ofNames way).name = (way.getLast hway).toList := Path.name_ofNames hway
  unfold excludedBy at hroot ⊢
  split
  next rest =>
    have hrest : '/' ∉ rest := fun h => hslash (List.mem_cons_of_mem _ h)
    have htextBelow : endsWith (root.within way).text rest =
        endsWith (root.within way).name rest :=
      Path.endsWith_text (p := root.within way) (.inr habs) (by simp [Path.within, hway])
        (by rwa [hbelow]) hrest
    have htextHere : endsWith (Path.ofNames way).text rest =
        endsWith (Path.ofNames way).name rest :=
      Path.endsWith_text (.inl rfl) (by simp [Path.ofNames, hway]) (by rwa [hhere]) hrest
    rw [htextBelow, htextHere, hbelow, hhere]
  next hplain =>
    have hnot : pattern ∉ root.parts := by
      split at hroot
      · exact absurd rfl (hplain _)
      · simpa using hroot
    have hparts : (Path.ofNames way).parts = way.map String.toList := rfl
    simp [Path.parts_within, hparts, hnot]

namespace Selection

variable {s : Selection} {root : Path}

/-- Below a root that is not left out itself, patterns without slashes leave out what they leave out
where the way starts from there. -/
theorem leavesOut_within_slashless (habs : root.IsAbsolute) (hroot : s.leavesOut root = false)
    (hslash : ∀ pattern ∈ s.patterns, '/' ∉ pattern) (hway : way ≠ [])
    (hnames : ∀ name ∈ way, IsFileName name.toList) :
    s.leavesOut (root.within way) = s.leavesOut (.ofNames way) := by
  unfold leavesOut excluded at *
  rw [Bool.eq_iff_iff, List.any_eq_true, List.any_eq_true]
  apply exists_congr
  intro pattern
  apply and_congr_right
  intro hpattern
  have hnot : excludedBy root pattern = false :=
    Bool.eq_false_iff.mpr (List.any_eq_false.mp hroot pattern hpattern)
  rw [excludedBy_within_slashless habs (hslash pattern hpattern) hnot hway hnames]

/-! ## Files that are read -/

theorem toList_loop (bytes : ByteArray) (place : Nat) (read : List UInt8) :
    ByteArray.toList.loop bytes place read = read.reverse ++ bytes.data.toList.drop place := by
  fun_induction ByteArray.toList.loop bytes place read with
  | case1 place read h ih =>
    have hlt : place < bytes.data.toList.length := h
    have hget : bytes.get! place = bytes.data.toList[place] := getElem!_pos bytes.data place h
    rw [ih, List.reverse_cons, List.append_assoc, List.drop_eq_getElem_cons hlt, hget,
      List.singleton_append]
  | case2 place read h =>
    rw [List.drop_eq_nil_of_le (Nat.le_of_not_lt h), List.append_nil]

/-- Bytes may be a text if none of the first ones is zero. -/
theorem isText_iff : isText bytes = true ↔
    ∀ (i : Nat) (h : i < bytes.size), i < sniffed → bytes[i] ≠ 0 := by
  have hread : (bytes.extract 0 sniffed).toList = bytes.data.toList.take sniffed := by
    rw [ByteArray.toList, toList_loop, ByteArray.data_extract, Array.toList_extract]
    simp
  rw [isText, hread, Bool.not_eq_true', List.contains_eq_mem, decide_eq_false_iff_not,
    List.mem_take_iff_getElem]
  constructor
  · intro h i hi hsniffed hzero
    exact h ⟨i, Nat.lt_min.mpr ⟨hsniffed, hi⟩, hzero⟩
  · rintro h ⟨i, hi, hzero⟩
    obtain ⟨hsniffed, hsize⟩ := Nat.lt_min.mp hi
    exact h i hsize hsniffed hzero

/-- Whether a file is read, by all that decides it: its size, its ending, its first bytes, and what
the patterns say of it and of the directories on the way to it. -/
structure Keeps (s : Selection) (way : Names) (bytes : ByteArray) : Prop where
  size : ∀ most ∈ s.most, most.lt (.int bytes.size) = false
  ending : lower (Files.ending (Path.ofNames way).name) ∉ s.endings
  text : ∀ (i : Nat) (h : i < bytes.size), i < 8192 → bytes[i] ≠ 0
  included : ∀ front, front ≠ [] → front <+: way → excluded (.ofNames front) s.patterns = false

theorem admits_iff {name : List Char} : s.admits name bytes = true ↔
    lower (Files.ending name) ∉ s.endings ∧
      (∀ most ∈ s.most, most.lt (.int bytes.size) = false) ∧
      ∀ (i : Nat) (h : i < bytes.size), i < sniffed → bytes[i] ≠ 0 := by
  rw [admits, Bool.and_eq_true, Bool.and_eq_true, isText_iff, and_assoc]
  refine and_congr (by simp) (and_congr_left fun _ => ?_)
  cases s.most <;> simp

theorem keeps_iff (root : Path) (hway : way ≠ []) : s.Keeps way bytes ↔
    s.admits (root.within way).name bytes = true ∧
      ∀ front, front ≠ [] → front <+: way → s.leavesOut (.ofNames front) = false := by
  rw [Path.name_within hway, ← Path.name_ofNames hway, admits_iff]
  exact ⟨fun h => ⟨⟨h.ending, h.size, h.text⟩, h.included⟩,
    fun h => ⟨h.1.2.1, h.1.1, h.1.2.2, h.2⟩⟩

end Selection

/-- Parts that are joined by a character that none of them holds can be told apart again. -/
theorem splitAt_join {c : Char} {parts : List (List Char)} (hne : parts ≠ [])
    (hparts : ∀ part ∈ parts, c ∉ part) : splitAt c (join [c] parts) = parts := by
  induction parts with
  | nil => contradiction
  | cons part others ih =>
    obtain ⟨hpart, hothers⟩ := List.forall_mem_cons.mp hparts
    by_cases hnil : others = []
    · rw [hnil, join_singleton, splitAt_eq_singleton hpart]
    · rw [join_cons hnil, List.singleton_append, splitAt_append_cons, splitAt_eq_singleton hpart,
        ih hnil hothers, List.singleton_append]

/-- The written form of a way leads along its names. -/
theorem names_ofText_intercalate (hnames : ∀ name ∈ way, IsFileName name.toList) :
    (Path.ofText ("/".intercalate way).toList).names = way.map String.toList := by
  have htext : ("/".intercalate way).toList = join ['/'] (way.map String.toList) :=
    String.toList_intercalate
  by_cases hway : way = []
  · subst hway
    rfl
  · have hslash : ∀ part ∈ way.map String.toList, '/' ∉ part :=
      List.forall_mem_map.mpr fun name hname => (hnames name hname).slashless
    have hparts : splitAt '/' (join ['/'] (way.map String.toList)) = way.map String.toList :=
      splitAt_join (by simpa using hway) hslash
    rw [Path.ofText, htext, hparts, List.filter_eq_self, List.forall_mem_map]
    intro name hname
    simp [(hnames name hname).nonempty, (hnames name hname).notHere]

theorem intercalate_injective {way' : Names} (hnames : ∀ name ∈ way, IsFileName name.toList)
    (hnames' : ∀ name ∈ way', IsFileName name.toList)
    (h : "/".intercalate way = "/".intercalate way') : way = way' := by
  apply List.map_injective_iff.mpr fun _ _ => String.toList_injective
  rw [← names_ofText_intercalate hnames, h, names_ofText_intercalate hnames']

namespace Selection

variable {s : Selection} {root : Path}

/-- **What is read from a tree.** Below a root that no pattern excludes, patterns without slashes
make a walk read just the files that pass for themselves: that are small enough, with a wanted
ending and no zero among the first bytes, and such that neither they nor a directory on the way to
them is excluded. Each of them is read once, and they come in the order of a walk. -/
theorem load_flat (hproper : (Entry.directory entries).Proper) (habs : root.IsAbsolute)
    (hroot : s.leavesOut root = false) (hslash : ∀ pattern ∈ s.patterns, '/' ∉ pattern) :
    ∃ found : List (Names × ByteArray),
      s.load root (.directory entries) = found.map (fun f => sourceOf f.1 f.2) ∧
      (∀ way bytes, (way, bytes) ∈ found ↔
        (Entry.directory entries).at? way = some (.file bytes) ∧ s.Keeps way bytes) ∧
      found.Pairwise (fun f g => Precedes f.1 g.1) ∧
      ((s.load root (.directory entries)).map SourceFile.path).Nodup := by
  obtain ⟨found, hcovers⟩ := exists_covers s root hproper []
  have hload : s.load root (.directory entries) = found.map fun f => sourceOf f.1 f.2 := by
    have hfiles := hcovers.files
    rw [Path.within_nil] at hfiles
    exact hfiles
  have hat (f : Names × ByteArray) (hf : f ∈ found) : ∀ name ∈ f.1, IsFileName name.toList :=
    hproper.isFileName ((hcovers.mem_iff f).mp hf).1
  refine ⟨found, hload, fun way bytes => ?_, hcovers.ordered, ?_⟩
  · rw [hcovers.mem_iff]
    apply and_congr_right
    intro hfile
    have hway : way ≠ [] := by
      rintro rfl
      simp [Entry.at?] at hfile
    rw [keeps_iff root hway]
    apply and_congr_right
    intro _
    -- The walk asked about every front of the way, below the root.
    refine forall_congr' fun front => forall_congr' fun hne => forall_congr' fun hfront => ?_
    have hnames : ∀ name ∈ front, IsFileName name.toList := fun name hname =>
      hproper.isFileName hfile name (hfront.subset hname)
    rw [List.nil_append, leavesOut_within_slashless habs hroot hslash hne hnames]
  · rw [hload, List.map_map, List.Nodup, List.pairwise_map]
    refine hcovers.ordered.imp_of_mem fun {f g} hf hg hbefore hpath => ?_
    have hway : f.1 = g.1 := intercalate_injective (hat f hf) (hat g hg) hpath
    exact Precedes.irrefl _ (hway ▸ hbefore)

/-- A tree with a directory that the default patterns exclude and a file that is no text. -/
theorem load_flat_shop :
    let s : Selection := ⟨defaultExclude.map String.toList, [".md".toList], some (.int 100)⟩
    let root : Path := .ofText "/home/me/shop".toList
    let text : Entry := .file ByteArray.empty
    let tree : Entry := .directory [("z.ts", text), ("src", .directory [("a.ts", text)]),
      ("node_modules", .directory [("b.ts", text)]), ("icon.ts", .file ⟨#[0]⟩)]
    (tree.Proper ∧ root.IsAbsolute ∧ s.leavesOut root = false ∧
      ∀ pattern ∈ s.patterns, '/' ∉ pattern) ∧
    ∃ found : List (Names × ByteArray),
      s.load root tree = found.map (fun f => sourceOf f.1 f.2) ∧
      (["z.ts"], ByteArray.empty) ∈ found ∧ (["src", "a.ts"], ByteArray.empty) ∈ found ∧
      (["node_modules", "b.ts"], ByteArray.empty) ∉ found ∧ (["icon.ts"], ⟨#[0]⟩) ∉ found := by
  intro s root text tree
  have hsingle {name : String} (hname : IsFileName name.toList) :
      (Entry.directory [(name, text)]).Proper :=
    .directory (by simp) (by simpa using hname) (by simpa using .file _)
  have hproper : tree.Proper := by
    refine .directory (by decide) (by decide) ?_
    simp only [List.forall_mem_cons]
    exact ⟨.file _, hsingle (by decide), hsingle (by decide), .file _, by simp⟩
  have habs : root.IsAbsolute := by decide +kernel
  have hroot : s.leavesOut root = false := by decide +kernel
  have hslash : ∀ pattern ∈ s.patterns, '/' ∉ pattern := by decide +kernel
  obtain ⟨found, hload, hmem, -⟩ := load_flat hproper habs hroot hslash
  have hkept {way : Names} (hending : lower (Files.ending (Path.ofNames way).name) ∉ s.endings)
      (hincluded : ∀ front ∈ way.inits, front ≠ [] → excluded (.ofNames front) s.patterns = false) :
      s.Keeps way ByteArray.empty :=
    ⟨by decide, hending, fun _ h => absurd h (Nat.not_lt_zero _),
      fun front hne hfront => hincluded front ((List.mem_inits _ _).mpr hfront) hne⟩
  refine ⟨⟨hproper, habs, hroot, hslash⟩, found, hload, ?_, ?_, ?_, ?_⟩
  · exact (hmem _ _).mpr ⟨rfl, hkept (by decide +kernel) (by decide +kernel)⟩
  · exact (hmem _ _).mpr ⟨rfl, hkept (by decide +kernel) (by decide +kernel)⟩
  · intro hfound
    have hno := ((hmem _ _).mp hfound).2.included ["node_modules"] (by simp) (by simp)
    exact absurd hno (by decide +kernel)
  · intro hfound
    exact ((hmem _ _).mp hfound).2.text 0 (by decide) (by decide) rfl

end Selection

end CodeSurvey.Files
