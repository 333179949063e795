import CodeSurvey.Proofs.Attempts
import CodeSurvey.Proofs.Matches
import CodeSurvey.Proofs.PlainReading
import CodeSurvey.Proofs.Squeezing
import CodeSurvey.Proofs.StableSort

/-!
# Relations of entity classes

A field relates its class to the type that it holds, less a generic type or the brackets of a list
around it. At each end of the type at most one of these is taken away, so what is left need not be
the name of a type.

- `replaceAll_typeWrapping`: what is left of a type.
- `relation?_iff`: the type that a field relates to.
- `unwrapped_name`: a name within one wrapping is what is left.
- `Surveyor.models_relations`: the relations of all entity classes, and when they are names.
- `Surveyor.relations_misnamed`: a relation that is no name.
-/

namespace CodeSurvey.Extract

open Text Source Pattern

/-! ## Wrappings -/

/-- What is taken away in front of a type. -/
def openings : List (List Char) :=
  ["Promise<".toList, "Array<".toList]

/-- What is taken away behind a type. -/
def closings : List (List Char) :=
  ["[]".toList, ">".toList]

/-- The type without what stands in front of it. -/
def unopened (type : List Char) : List Char :=
  match openings.find? (·.isPrefixOf type) with
  | some opening => type.drop opening.length
  | none => type

/-- The type without what stands behind it. -/
def unclosed (type : List Char) : List Char :=
  match closings.find? (·.isSuffixOf type) with
  | some closing => type.take (type.length - closing.length)
  | none => type

/-- The text is the name with at most one wrapping on each side. -/
def Wraps (type name : List Char) : Prop :=
  ∃ opening ∈ [] :: openings, ∃ closing ∈ [] :: closings, type = opening ++ (name ++ closing)

variable {type name opening middle closing : List Char}

theorem ne_nil_of_mem_openings (h : opening ∈ openings) : opening ≠ [] := by
  rintro rfl
  exact absurd h (by decide)

theorem ne_nil_of_mem_closings (h : closing ∈ closings) : closing ≠ [] := by
  rintro rfl
  exact absurd h (by decide)

/-- A type is what stands in front of it and the rest. -/
theorem exists_opening (type : List Char) : ∃ opening, type = opening ++ unopened type ∧
    (opening ∈ openings ∨ opening = [] ∧ ∀ o ∈ openings, ¬o <+: type) := by
  rw [unopened]
  cases hfound : openings.find? (·.isPrefixOf type) with
  | some opening =>
    have hprefix : opening <+: type :=
      List.isPrefixOf_iff_prefix.mp (by simpa using List.find?_some hfound)
    exact ⟨opening, (List.prefix_iff_eq_append.mp hprefix).symm,
      .inl (List.mem_of_find?_eq_some hfound)⟩
  | none =>
    refine ⟨[], rfl, .inr ⟨rfl, fun o ho hprefix => ?_⟩⟩
    exact List.find?_eq_none.mp hfound o ho (List.isPrefixOf_iff_prefix.mpr hprefix)

/-- A type is the rest and what stands behind it. -/
theorem exists_closing (type : List Char) : ∃ closing, type = unclosed type ++ closing ∧
    (closing ∈ closings ∨ closing = [] ∧ ∀ c ∈ closings, ¬c <:+ unclosed type) := by
  rw [unclosed]
  cases hfound : closings.find? (·.isSuffixOf type) with
  | some closing =>
    have hsuffix : closing <:+ type :=
      List.isSuffixOf_iff_suffix.mp (by simpa using List.find?_some hfound)
    exact ⟨closing, (List.suffix_iff_eq_append.mp hsuffix).symm,
      .inl (List.mem_of_find?_eq_some hfound)⟩
  | none =>
    refine ⟨[], (List.append_nil _).symm, .inr ⟨rfl, fun c hc hsuffix => ?_⟩⟩
    exact List.find?_eq_none.mp hfound c hc (List.isSuffixOf_iff_suffix.mpr hsuffix)

/-- A type wraps what is left of it. -/
theorem wraps_unwrapped (type : List Char) : Wraps type (unclosed (unopened type)) := by
  obtain ⟨opening, htype, hopening⟩ := exists_opening type
  obtain ⟨closing, hrest, hclosing⟩ := exists_closing (unopened type)
  refine ⟨opening, ?_, closing, ?_, by rw [← hrest, ← htype]⟩
  · exact List.mem_cons.mpr (hopening.symm.imp_left And.left)
  · exact List.mem_cons.mpr (hclosing.symm.imp_left And.left)

/-! ## Replacing -/

/-- A wrapping in front is matched at the start. -/
theorem matchHere?_opening (hopening : opening ∈ openings) (subject rest : List Char) :
    typeWrapping.matchHere? subject ⟨[], opening ++ rest, 0, []⟩ false =
      some ⟨subject, 0, opening.length, []⟩ := by
  simp only [openings, List.mem_cons, List.not_mem_nil, or_false] at hopening
  rcases hopening with rfl | rfl <;> rfl

/-- A wrapping behind is matched at the end. -/
theorem matchHere?_closing (hclosing : closing ∈ closings) (subject before : List Char)
    (offset : Nat) :
    typeWrapping.matchHere? subject ⟨before, closing, offset, []⟩ false =
      some ⟨subject, offset, offset + closing.length, []⟩ := by
  simp only [closings, List.mem_cons, List.not_mem_nil, or_false] at hclosing
  rcases hclosing with rfl | rfl
  · rfl
  · cases before <;> rfl

/-- Nothing else is matched in a line. -/
theorem matchHere?_eq_none {s : State} (hfeed : '\n' ∉ s.after)
    (hopen : s.before = [] → ∀ o ∈ openings, ¬o <+: s.after)
    (hclose : ∀ c ∈ closings, s.after ≠ c) (subject : List Char) :
    typeWrapping.matchHere? subject s false = none := by
  -- Two of the wrappings are read up to the end of the text, the other two from its start on.
  have hend {word : String} {t : State} (hreads : (lit word ++ anchor .lastLineEnd).Reads s t) :
      s.after = word.toList := by
    obtain ⟨u, hword, hanchor⟩ := hreads
    have hparts := (passes_of_reads_lit hword).after
    have hnil : u.after = [] := by
      have hholds := hanchor.1
      simp only [State.holds, Bool.or_eq_true, List.isEmpty_iff, beq_iff_eq] at hholds
      refine hholds.resolve_right fun hlast => hfeed ?_
      rw [hparts, hlast]
      simp
    rw [hparts, hnil, List.append_nil]
  have hstart {word : String} {t : State} (hreads : (textStart ++ lit word).Reads s t) :
      s.before = [] ∧ word.toList <+: s.after := by
    obtain ⟨u, ⟨hholds, rfl⟩, hword⟩ := hreads
    exact ⟨List.isEmpty_iff.mp hholds, ⟨_, (passes_of_reads_lit hword).after.symm⟩⟩
  cases hmatch : typeWrapping.matchHere? subject s false with
  | none => rfl
  | some m =>
    obtain ⟨t, hreads, -⟩ := exists_reads_of_matchHere? hmatch
    rcases hreads with hlist | hpromise | harray | hgeneric
    · exact absurd (hend hlist) (hclose _ (by simp [closings]))
    · exact absurd (hstart hpromise).2 (hopen (hstart hpromise).1 _ (by simp [openings]))
    · exact absurd (hstart harray).2 (hopen (hstart harray).1 _ (by simp [openings]))
    · exact absurd (hend hgeneric) (hclose _ (by simp [closings]))

/-- No wrapping at the end is a part of another one. -/
theorem closings_apart : ∀ c ∈ closings, ∀ d ∈ closings, d <:+ c → d = c := by
  decide

/-- The wrapping at the end of a type, if there is one, is all that can be taken away there. -/
def Closes (closing middle : List Char) : Prop :=
  closing ∈ closings ∨ closing = [] ∧ ∀ c ∈ closings, ¬c <:+ middle

/-- The part of a type before the wrapping at its end is passed over. -/
theorem searchFrom_middle (subject : List Char) : ∀ (before : List Char) (offset : Nat),
    Closes closing middle → '\n' ∉ middle ++ closing →
    (before = [] → ∀ o ∈ openings, ¬o <+: middle ++ closing) →
    typeWrapping.searchFrom subject (middle ++ closing) before offset false =
      typeWrapping.searchFrom subject closing (middle.reverse ++ before)
        (offset + middle.length) false := by
  induction middle with
  | nil => intro before offset _ _ _; rfl
  | cons first middle ih =>
    intro before offset hcloses hfeed hopen
    -- No wrapping starts in the middle: it would end the text, and so hold the one at the end as a
    -- part of itself.
    have hclose : ∀ c ∈ closings, first :: (middle ++ closing) ≠ c := by
      rintro c hc rfl
      rcases hcloses with hclosing | ⟨rfl, hnone⟩
      · have hsame := closings_apart _ hc closing hclosing
          (List.suffix_append (first :: middle) closing)
        have hlength : closing.length = middle.length + closing.length + 1 := by
          simpa using congrArg List.length hsame
        omega
      · rw [List.append_nil] at hc
        exact hnone _ hc List.suffix_rfl
    have hnone : typeWrapping.matchHere? subject ⟨before, first :: (middle ++ closing), offset, []⟩
        false = none := matchHere?_eq_none hfeed hopen hclose subject
    have hrest : Closes closing middle := hcloses.imp_right fun ⟨hnil, hinner⟩ =>
      ⟨hnil, fun c hc hsuffix => hinner c hc (hsuffix.trans (List.suffix_cons _ _))⟩
    rw [List.cons_append, searchFrom, hnone]
    simp only
    rw [ih (first :: before) (offset + 1) hrest (fun hmem => hfeed (List.mem_cons_of_mem _ hmem))
      (by simp)]
    simp [Nat.add_assoc, Nat.add_comm 1]

/-- At the end of a type nothing is found. -/
theorem searchFrom_end (subject before : List Char) (offset : Nat) :
    typeWrapping.searchFrom subject [] before offset false = none :=
  matchHere?_eq_none (by simp) (fun _ => by simp [openings]) (by simp [closings]) subject

/-- Behind the front of a type the wrapping at its end is found, and nothing else. -/
theorem findAllFrom_middle (hcloses : Closes closing middle) (subject before : List Char)
    (fuel offset : Nat) (hfeed : '\n' ∉ middle ++ closing)
    (hopen : before = [] → ∀ o ∈ openings, ¬o <+: middle ++ closing) :
    typeWrapping.findAllFrom subject (fuel + 2) ⟨before, middle ++ closing, offset, []⟩ false =
      if closing = [] then []
      else [⟨subject, offset + middle.length, offset + middle.length + closing.length, []⟩] := by
  have hskip := searchFrom_middle subject before offset hcloses hfeed hopen
  rcases hcloses with hclosing | ⟨rfl, -⟩
  · have hne := ne_nil_of_mem_closings hclosing
    have hfound : typeWrapping.searchFrom subject (middle ++ (closing ++ [])) before offset false =
        some ⟨subject, offset + middle.length, offset + middle.length + closing.length, []⟩ := by
      rw [List.append_nil, hskip]
      have hmatch := matchHere?_closing hclosing subject (middle.reverse ++ before)
        (offset + middle.length)
      rw [← List.append_nil closing] at hmatch ⊢
      exact searchFrom_of_header hne (by simpa using hmatch)
    have hpadded : middle ++ closing = middle ++ (closing ++ []) := by rw [List.append_nil]
    rw [if_neg hne, hpadded, findAllFrom_of_searchFrom hne hfound, findAllFrom, searchFrom_end]
  · rw [findAllFrom, hskip, searchFrom_end]
    rfl

/-- At the start of a type the wrapping in front is found first. -/
theorem findAllFrom_opening (hopening : opening ∈ openings) (subject rest : List Char)
    (fuel : Nat) :
    typeWrapping.findAllFrom subject (fuel + 1) ⟨[], opening ++ rest, 0, []⟩ false =
      ⟨subject, 0, opening.length, []⟩ ::
        typeWrapping.findAllFrom subject fuel ⟨opening.reverse, rest, opening.length, []⟩ false := by
  have hne := ne_nil_of_mem_openings hopening
  have hmatch := searchFrom_of_header hne (matchHere?_opening hopening subject rest)
  have hsearch : typeWrapping.searchFrom subject ([] ++ (opening ++ rest)) [] 0 false =
      some ⟨subject, 0 + 0, 0 + 0 + opening.length, []⟩ := by
    rwa [List.nil_append, Nat.add_zero, Nat.zero_add]
  have hall : typeWrapping.findAllFrom subject (fuel + 1) ⟨[], [] ++ (opening ++ rest), 0, []⟩
      false = _ := findAllFrom_of_searchFrom hne hsearch
  simpa using hall

/-- Where the wrapping at the end is replaced behind the front of a type, the middle is left. -/
theorem replaceFrom_middle (opening middle closing subject : List Char) :
    replaceFrom (opening ++ (middle ++ closing)) (fun _ => []) opening.length
      (if closing = [] then []
        else [⟨subject, opening.length + middle.length,
          opening.length + middle.length + closing.length, []⟩]) = middle := by
  split
  · rename_i hnil
    rw [replaceFrom, List.drop_left, hnil, List.append_nil]
  · rw [replaceFrom, replaceFrom, between_append, List.drop_eq_nil_of_le (by simp; omega)]
    simp

/-- **What is left of a type.** At each end at most one wrapping is taken away. -/
theorem replaceAll_typeWrapping (h : '\n' ∉ type) :
    typeWrapping.replaceAll (fun _ => []) type = unclosed (unopened type) := by
  obtain ⟨opening, htype, hopening⟩ := exists_opening type
  obtain ⟨closing, hrest, hcloses⟩ := exists_closing (unopened type)
  generalize unclosed (unopened type) = middle at hrest hcloses ⊢
  rw [hrest] at htype
  subst htype
  -- The type is a wrapping in front, what is left of it, and a wrapping behind; each wrapping may
  -- be empty.
  have hfeed : '\n' ∉ middle ++ closing := fun hmem => h (List.mem_append_right _ hmem)
  rw [replaceAll, findAll]
  rcases hopening with hopening | ⟨rfl, hnone⟩
  · have hne := ne_nil_of_mem_openings hopening
    obtain ⟨fuel, hfuel⟩ : ∃ fuel,
        2 * (opening ++ (middle ++ closing)).length + 2 = fuel + 2 + 1 := by
      have hlength := List.length_pos_iff.mpr hne
      rw [List.length_append]
      exact ⟨2 * (opening.length + (middle ++ closing).length) - 1, by omega⟩
    rw [hfuel, findAllFrom_opening hopening,
      findAllFrom_middle hcloses _ _ fuel _ hfeed (by simp [hne]), replaceFrom, replaceFrom_middle]
    rfl
  · rw [List.nil_append] at hnone ⊢
    rw [findAllFrom_middle hcloses _ _ _ _ hfeed (fun _ => hnone)]
    simpa using replaceFrom_middle [] middle closing (middle ++ closing)

/-! ## Names -/

/-- Whether a text is the name of a type, perhaps one with dots. -/
def isTypeName : List Char → Bool
  | [] => false
  | c :: rest => identifierStart.mem c && rest.all fun c => identifierRest.mem c || c == '.'

/-- The characters that wrappings are made of, besides words. -/
def wrappingMarks : List Char :=
  ['<', '>', '[', ']']

/-- In the name of a type none of them stands. -/
theorem notMem_of_isTypeName (h : isTypeName name = true) : ∀ c ∈ name, c ∉ wrappingMarks := by
  have hmarks : ∀ c ∈ wrappingMarks, identifierStart.mem c = false ∧
      (identifierRest.mem c || c == '.') = false := by
    decide
  intro c hc hmark
  obtain ⟨hstart, hrest⟩ := hmarks c hmark
  cases name with
  | nil => contradiction
  | cons first rest =>
    obtain ⟨hfirst, hothers⟩ := Bool.and_eq_true_iff.mp h
    rcases List.mem_cons.mp hc with rfl | hc
    · rw [hfirst] at hstart
      contradiction
    · rw [List.all_eq_true.mp hothers c hc] at hrest
      contradiction

/-- What stands in front of a name is taken away. -/
theorem unopened_wrapped (hname : ∀ c ∈ name, c ∉ wrappingMarks)
    (hopening : opening ∈ [] :: openings) (hclosing : closing ∈ [] :: closings) :
    unopened (opening ++ (name ++ closing)) = name ++ closing := by
  have hmark : ∀ o ∈ openings, '<' ∈ o := by decide
  have hclosed : '<' ∉ closing := by
    have hall : ∀ c ∈ [] :: closings, '<' ∉ c := by decide
    exact hall closing hclosing
  simp only [openings, List.mem_cons, List.not_mem_nil, or_false] at hopening
  rcases hopening with rfl | rfl | rfl
  · have hnone : openings.find? (·.isPrefixOf (name ++ closing)) = none := by
      refine List.find?_eq_none.mpr fun o ho hprefix => ?_
      have hmem := (List.isPrefixOf_iff_prefix.mp hprefix).subset (hmark o ho)
      rcases List.mem_append.mp hmem with hmem | hmem
      · exact hname _ hmem (by decide)
      · exact hclosed hmem
    rw [List.nil_append, unopened, hnone]
  · rfl
  · rfl

/-- So is what stands behind it. -/
theorem unclosed_wrapped (hname : ∀ c ∈ name, c ∉ wrappingMarks)
    (hclosing : closing ∈ [] :: closings) : unclosed (name ++ closing) = name := by
  rw [unclosed]
  cases hfound : closings.find? (·.isSuffixOf (name ++ closing)) with
  | none =>
    rcases List.mem_cons.mp hclosing with rfl | hclosing
    · exact List.append_nil name
    · have hsuffix := List.isSuffixOf_iff_suffix.mpr (List.suffix_append name closing)
      exact absurd hsuffix (List.find?_eq_none.mp hfound closing hclosing)
  | some found =>
    have hmem := List.mem_of_find?_eq_some hfound
    have hsuffix : found <:+ name ++ closing :=
      List.isSuffixOf_iff_suffix.mp (by simpa using List.find?_some hfound)
    rcases List.mem_cons.mp hclosing with rfl | hclosing
    · -- Every wrapping holds a mark, and a name holds none.
      have hmarks : ∀ closing ∈ closings, wrappingMarks.any (closing.contains ·) = true := by
        decide
      obtain ⟨mark, hmark, hin⟩ := List.any_eq_true.mp (hmarks found hmem)
      rw [List.append_nil] at hsuffix
      exact absurd hmark (hname mark (hsuffix.subset (List.contains_iff_mem.mp hin)))
    · -- Of two wrappings at the end the shorter is a part of the longer, so they are the same.
      have hsame : found = closing := by
        rcases List.suffix_or_suffix_of_suffix hsuffix (List.suffix_append name closing) with h | h
        · exact closings_apart _ hclosing _ hmem h
        · exact (closings_apart _ hmem _ hclosing h).symm
      rw [hsame]
      simp

/-- **Wrapped names.** A name within at most one wrapping on each side is what is left. -/
theorem unwrapped_name (hname : isTypeName name = true) (h : Wraps type name) :
    unclosed (unopened type) = name := by
  obtain ⟨opening, hopening, closing, hclosing, rfl⟩ := h
  have hmarks := notMem_of_isTypeName hname
  rw [unopened_wrapped hmarks hopening hclosing, unclosed_wrapped hmarks hclosing]

/-! ## Fields -/

/-- The field has a type, and what is left of it begins with a capital and names no scalar. -/
def RelatesTo (f : Property) (name : String) : Prop :=
  ∃ type, f.type = some type ∧ name.toList = unclosed (unopened type.toList) ∧
    name.toList.head?.any isUpper = true ∧ name ∉ scalarTypes

/-- The types of fields are squeezed. -/
theorem squeeze_type_of_mem_fields {body : List Char} {limit : Int} {f : Property} {type : String}
    (hf : f ∈ fields body limit) (htype : f.type = some type) :
    squeeze type.toList = type.toList := by
  have hread : f ∈ (splitTopLevel body [';', '\n']).filterMap field? := by
    rw [fields, limited] at hf
    split at hf
    · exact hf
    · exact List.mem_of_mem_take hf
  obtain ⟨part, -, hpart⟩ := List.mem_filterMap.mp hread
  obtain ⟨m, -, hpart⟩ := Option.bind_eq_some_iff.mp hpart
  obtain ⟨found, -, hpart⟩ := Option.bind_eq_some_iff.mp hpart
  split at hpart
  · contradiction
  · obtain rfl := Option.some.inj hpart
    obtain ⟨text, -, rfl⟩ := Option.map_eq_some_iff.mp htype
    rw [String.toList_ofList, squeeze_squeeze]

/-- What a field relates to. -/
theorem relation?_iff {f : Property}
    (hf : ∀ type, f.type = some type → squeeze type.toList = type.toList) (name : String) :
    relation? f = some name ↔ RelatesTo f name := by
  have hline {type : String} (htype : f.type = some type) : '\n' ∉ type.toList := by
    intro hmem
    rw [← hf type htype] at hmem
    exact absurd (eq_blank_of_mem_squeeze hmem rfl) (by decide)
  have hbase {type : String} (htype : f.type = some type) :
      typeWrapping.replaceAll (fun _ => []) (trim type.toList) =
        unclosed (unopened type.toList) := by
    rw [trim_of_squeezed (hf type htype), replaceAll_typeWrapping (hline htype)]
  constructor
  · intro h
    obtain ⟨type, htype, h⟩ := Option.bind_eq_some_iff.mp h
    rw [hbase htype] at h
    simp only [Option.ite_none_right_eq_some, Bool.and_eq_true, Bool.not_eq_true',
      Option.some.injEq, List.contains_eq_mem, decide_eq_false_iff_not] at h
    obtain ⟨⟨hupper, hscalar⟩, rfl⟩ := h
    exact ⟨type, htype, String.toList_ofList, by rwa [String.toList_ofList], hscalar⟩
  · rintro ⟨type, htype, hname, hupper, hscalar⟩
    have hofList : String.ofList (unclosed (unopened type.toList)) = name := by
      rw [← hname, String.ofList_toList]
    rw [relation?, htype]
    show (if (_ : Bool) = true then some (String.ofList _) else none) = _
    rw [hbase htype, hofList, ← hname, hupper]
    simpa using hscalar

/-! ## Models -/

/-- The relations of an entity class: each of them once, and exactly what its fields relate to. -/
theorem mem_relations_classModel {limits : Limits} {v : View} {c : Class}
    (hc : c ∈ classes limits v) (name : String) :
    name ∈ (classModel v c).relations ↔ ∃ f ∈ (classModel v c).fields, RelatesTo f name := by
  obtain ⟨s, -, rfl⟩ := List.mem_map.mp hc
  show name ∈ (List.filterMap relation? (buildClass limits v s).properties).eraseDups ↔ _
  rw [List.mem_eraseDups, List.mem_filterMap]
  refine exists_congr fun f => and_congr_right fun hf => ?_
  exact relation?_iff (fun type htype => squeeze_type_of_mem_fields hf htype) name

end CodeSurvey.Extract

namespace CodeSurvey.Survey

open Extract

/-- The models of a file that come from classes are those of its classes. -/
theorem Surveyor.exists_class_of_mem_models {s : Surveyor} {x : Extractors} {faults : Faults}
    {file : SourceFile} {m : Model} (hm : m ∈ (s.surveyOf x faults file).entities .models)
    (horigin : m.origin = .cls) :
    ∃ v, ∃ c ∈ classes x.limits v, m = classModel v c := by
  rw [(s.surveyOf_spec x faults file).1, Context.left, Extractors.entitiesWithout_eq] at hm
  split at hm
  · contradiction
  · rw [Extractors.found] at hm
    split at hm
    · obtain ⟨span, -, rfl⟩ := List.mem_map.mp hm
      contradiction
    · obtain ⟨c, hc, rfl⟩ := List.mem_map.mp hm
      rw [Extractors.entitiesWithout_eq] at hc
      split at hc
      · contradiction
      · exact ⟨_, c, hc, rfl⟩

/-- **Relations.** The relations of a model that comes from a class are distinct, and they are what
its fields relate to: a type that begins with a capital, less at most one wrapping on each side. So
all of them are names of types just if each such type is a name within these wrappings. -/
theorem Surveyor.models_relations (s : Surveyor) (x : Extractors) (faults : Faults)
    (file : SourceFile) {m : Model} (hm : m ∈ (s.surveyOf x faults file).entities .models)
    (horigin : m.origin = .cls) :
    m.relations.Nodup ∧
      (∀ name, name ∈ m.relations ↔ ∃ f ∈ m.fields, RelatesTo f name) ∧
      ((∀ name ∈ m.relations, isTypeName name.toList = true) ↔
        ∀ f ∈ m.fields, ∀ name, RelatesTo f name →
          ∃ type word, f.type = some type ∧ isTypeName word = true ∧ Wraps type.toList word) := by
  obtain ⟨v, c, hc, rfl⟩ := exists_class_of_mem_models hm horigin
  have hmem := mem_relations_classModel hc
  refine ⟨nodup_eraseDups _, hmem, fun hnames f hf name hrelates => ?_,
    fun hwrapped name hname => ?_⟩
  · obtain ⟨type, htype, hleft, -⟩ := id hrelates
    refine ⟨type, name.toList, htype, hnames name ((hmem name).mpr ⟨f, hf, hrelates⟩), ?_⟩
    rw [hleft]
    exact wraps_unwrapped type.toList
  · obtain ⟨f, hf, hrelates⟩ := (hmem name).mp hname
    obtain ⟨type, word, htype, hword, hwraps⟩ := hwrapped f hf name hrelates
    obtain ⟨type', htype', hleft, -⟩ := hrelates
    obtain rfl : type = type' := Option.some.inj (htype.symm.trans htype')
    rw [hleft, unwrapped_name hword hwraps]
    exact hword

/-- A file with one entity class, with these fields. -/
def entityFile (fields : List String) : SourceFile :=
  { path := "src/models/a.ts"
    content := "export class A \x7b\n" ++ String.join (fields.map fun f => "  " ++ f ++ "\n")
      ++ "\x7d\n" }

/-- The relations of the models that come from classes. -/
def classRelations (s : Surveyor) (x : Extractors) (file : SourceFile) : List (List String) :=
  (((s.surveyOf x [] file).entities .models).filter (·.origin == .cls)).map (·.relations)

/-- An entity class with a list, a promise and a scalar. -/
def userFile : SourceFile :=
  entityFile ["posts: Post[]", "owner: Promise<User>", "name: string"]

/-- The list and the promise are relations to the types in them. -/
theorem Surveyor.models_relations_list :
    ∃ s x, Surveyor.ofSettings [] none = .ok s ∧ s.extractors = .ok x ∧
      ∃ m ∈ (s.surveyOf x [] userFile).entities .models,
        m.origin = .cls ∧ m.relations = ["Post", "User"] ∧ m.relations.Nodup ∧
          (∃ f ∈ m.fields, RelatesTo f "User") ∧
          ∀ f ∈ m.fields, ∀ name, RelatesTo f name →
            ∃ type word, f.type = some type ∧ isTypeName word = true ∧ Wraps type.toList word := by
  have hfacts : ((Surveyor.ofSettings [] none).map fun s => (s.extractors.map fun x =>
      decide (classRelations s x userFile = [["Post", "User"]])).toOption).toOption =
        some (some true) := by
    decide +kernel
  obtain ⟨s, hs, hseen⟩ := exists_eq_ok_of_map hfacts
  obtain ⟨x, hx, hseen⟩ := exists_eq_ok_of_map hseen
  obtain ⟨m, hm, hrelations⟩ := List.mem_map.mp (of_decide_eq_true hseen ▸ List.mem_cons_self)
  obtain ⟨hm, horigin⟩ := List.mem_filter.mp hm
  obtain ⟨hnodup, hmem, hnames⟩ := s.models_relations x [] userFile hm (beq_iff_eq.mp horigin)
  refine ⟨s, x, hs, hx, m, hm, beq_iff_eq.mp horigin, hrelations, hnodup, ?_, ?_⟩
  · exact (hmem "User").mp (by simp [hrelations])
  · exact hnames.mp (by rw [hrelations]; decide)

/-- **Types that are no names.** What is left of a union, of a list within a promise and of other
generic types counts as a relation. -/
theorem Surveyor.relations_misnamed :
    ∃ s x, Surveyor.ofSettings [] none = .ok s ∧ s.extractors = .ok x ∧
      classRelations s x (entityFile ["owner: User | null", "posts: Promise<Post[]>",
        "votes: Map<string, Vote>"]) = [["User | null", "Post[]", "Map<string, Vote"]] ∧
      ["User | null", "Post[]", "Map<string, Vote"].all (fun name => isTypeName name.toList) =
        false := by
  have hfacts : ((Surveyor.ofSettings [] none).map fun s => (s.extractors.map fun x =>
      decide (classRelations s x (entityFile ["owner: User | null", "posts: Promise<Post[]>",
        "votes: Map<string, Vote>"]) =
          [["User | null", "Post[]", "Map<string, Vote"]])).toOption).toOption = some (some true) := by
    decide +kernel
  obtain ⟨s, hs, hseen⟩ := exists_eq_ok_of_map hfacts
  obtain ⟨x, hx, hseen⟩ := exists_eq_ok_of_map hseen
  exact ⟨s, x, hs, hx, of_decide_eq_true hseen, by decide⟩

end CodeSurvey.Survey
