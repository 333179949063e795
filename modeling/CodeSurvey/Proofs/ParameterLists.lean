import CodeSurvey.Proofs.Modifiers
import CodeSurvey.Proofs.Phrases

/-!
# Parameter lists

Reading a parameter list is the inverse of printing it. A printed parameter is made up of phrases:
its name with its marks, its type, and an equals sign before its default. The comma parts the
parameters of a list, the first equals sign that is no part of an arrow starts the default, and the
first colon starts the type, if it stands before the default.

- `ParameterText`, `ParameterText.Plain`: what is printed.
- `splitTopLevel_parameters`: a printed list comes apart into its parameters.
- `ParameterText.Plain.parameterParts_text`: a printed parameter is taken apart at its colon and its
  equals sign.
- `parameters_printed`: what is printed is read back.
- `parameters_assigned`: a parameter whose name is one of the modifiers is lost.
-/

namespace CodeSurvey.Source

open Text Pattern

/-! ## Printed parameters -/

/-- The parts of a parameter as it is printed. -/
structure ParameterText where
  name : List Char
  marked : Bool
  type? : Option (List Char)
  default? : Option (List Char)

namespace ParameterText

/-- The name with the question mark that stands behind it perhaps. -/
def label (p : ParameterText) : List Char :=
  p.name ++ if p.marked then ['?'] else []

/-- What stands before the default: the label, and the type behind a colon. -/
def front (p : ParameterText) : List Char :=
  p.label ++ (p.type?.elim [] fun type => ':' :: ' ' :: type)

/-- The default behind an equals sign. -/
def back (p : ParameterText) : List Char :=
  p.default?.elim [] fun default => ' ' :: '=' :: ' ' :: default

/-- The parameter as it is printed. -/
def text (p : ParameterText) : List Char :=
  p.front ++ p.back

/-- The record of the parameter: it may be left out if it is marked or has a default. -/
def parameter (p : ParameterText) : Parameter where
  name := String.ofList p.name
  type := p.type?.map String.ofList
  isOptional := p.marked || p.default?.isSome
  defaultValue := p.default?.map String.ofList

/-- Types and defaults are phrases without commas outside brackets, in which equals signs are parts
of arrows. -/
structure Plain (p : ParameterText) : Prop where
  name : isName p.name = true
  type : ∀ type ∈ p.type?, Phrase [','] type ∧ Arrows type
  default : ∀ default ∈ p.default?, Phrase [','] default ∧ Arrows default

instance (p : ParameterText) : Decidable p.Plain :=
  decidable_of_iff
    (isName p.name = true ∧ (∀ type ∈ p.type?, Phrase [','] type ∧ Arrows type) ∧
      ∀ default ∈ p.default?, Phrase [','] default ∧ Arrows default)
    ⟨fun ⟨hname, htype, hdefault⟩ => ⟨hname, htype, hdefault⟩,
      fun h => ⟨h.name, h.type, h.default⟩⟩

/-- The phrases of a printed parameter. -/
def parts (p : ParameterText) : List (List Char) :=
  (p.label ++ if p.type?.isSome then [':'] else []) ::
    (p.type?.toList ++ p.default?.elim [] fun default => [['='], default])

variable {p : ParameterText}

/-- The phrases stand one blank apart. -/
theorem text_eq_join (p : ParameterText) : p.text = join [' '] p.parts := by
  obtain ⟨name, marked, type?, default?⟩ := p
  cases type? <;> cases default? <;>
    simp [text, front, back, parts, join_eq_flatMap]

/-- Nothing in a label is blank, opens or closes anything, or starts a type or a default. -/
theorem Plain.label_plain (h : p.Plain) : ∀ c ∈ p.label, isPlain c = true ∧ c ∉ [':', '='] := by
  obtain ⟨-, hname⟩ := isName_iff.mp h.name
  intro c hc
  rw [label, List.mem_append, List.mem_ite_nil_right, List.mem_singleton] at hc
  rcases hc with hc | ⟨-, rfl⟩
  · obtain ⟨hplain, hmarks⟩ := hname c hc
    refine ⟨hplain, fun hmark => hmarks ?_⟩
    rcases List.mem_pair.mp hmark with rfl | rfl <;> decide
  · decide

/-- A label is a phrase, wherever it stands. -/
theorem Plain.label_phrase (h : p.Plain) : Phrase [] p.label := by
  refine phrase_of_name h.name ?_ rfl
  cases p.marked <;> rfl

/-- Each of the parts is a phrase. -/
theorem Plain.parts_phrase (h : p.Plain) : ∀ part ∈ p.parts, Phrase [','] part := by
  intro part hpart
  rw [parts, List.mem_cons, List.mem_append, Option.mem_toList] at hpart
  rcases hpart with rfl | htype | hdefault
  · rw [label, List.append_assoc]
    refine phrase_of_name h.name ?_ rfl
    cases p.marked <;> cases p.type? <;> rfl
  · exact (h.type part htype).1
  · cases hdef : p.default? with
    | none =>
      rw [hdef] at hdefault
      contradiction
    | some default =>
      have hpart : part = ['='] ∨ part = default := by simpa [hdef] using hdefault
      rcases hpart with rfl | rfl
      · decide
      · exact (h.default part hdef).1

/-- A printed parameter is an item of its list. -/
theorem Plain.item_text (h : p.Plain) : Item [','] p.text := by
  rw [text_eq_join]
  exact Phrase.item_join (by decide) (List.cons_ne_nil _ _) h.parts_phrase

end ParameterText

/-! ## Lists of parameters -/

section

variable {p : ParameterText} {ps : List ParameterText}

open ParameterText

/-- **Lists.** A printed list comes apart into its parameters. -/
theorem splitTopLevel_parameters (h : ∀ p ∈ ps, p.Plain) :
    splitTopLevel (join ", ".toList (ps.map text)) [','] = ps.map text := by
  cases ps with
  | nil => rfl
  | cons p ps =>
    obtain ⟨hp, hps⟩ := List.forall_mem_cons.mp h
    -- Each of the others stands behind a comma and one blank.
    let others := ps.map fun p => (',', p.text)
    have hprinted : join ", ".toList ((p :: ps).map text) =
        p.text ++ others.flatMap fun other => other.1 :: (List.replicate 1 ' ' ++ other.2) := by
      rw [List.map_cons, join_eq_flatMap, List.flatMap_map, List.flatMap_map]
      rfl
    have hothers : ∀ other ∈ others, other.1 ∈ [','] ∧ Item [','] other.2 := by
      intro other hother
      obtain ⟨q, hq, rfl⟩ := List.mem_map.mp hother
      exact ⟨List.mem_singleton_self _, (hps q hq).item_text⟩
    have hsplit := splitTopLevel_items (List.forall_mem_singleton.mpr rfl) (by decide) 1 hp.item_text
      hothers
    rw [hprinted, hsplit, List.map_map]
    rfl

/-! ## One parameter -/

/-- A parameter with a colon before its default has a type. -/
theorem parameterParts_typed {text : List Char} {colon : Nat}
    (hfound : findTopLevel? text ':' = some colon)
    (hbefore : colon < (findTopLevel? text '=').getD text.length) :
    parameterParts text =
      ((text.take ((findTopLevel? text '=').getD text.length)).take colon,
        (text.take ((findTopLevel? text '=').getD text.length)).drop (colon + 1),
        (findTopLevel? text '=').elim [] fun equals => trim (text.drop (equals + 1))) := by
  rw [parameterParts]
  simp only [hfound, if_pos hbefore]
  cases findTopLevel? text '=' <;> rfl

/-- One without has none. -/
theorem parameterParts_untyped {text : List Char}
    (h : ∀ colon, findTopLevel? text ':' = some colon →
      ¬ colon < (findTopLevel? text '=').getD text.length) :
    parameterParts text =
      (text.take ((findTopLevel? text '=').getD text.length), [],
        (findTopLevel? text '=').elim [] fun equals => trim (text.drop (equals + 1))) := by
  rw [parameterParts]
  cases hfound : findTopLevel? text ':' with
  | none => cases findTopLevel? text '=' <;> rfl
  | some colon =>
    simp only [if_neg (h colon hfound)]
    cases findTopLevel? text '=' <;> rfl

namespace ParameterText

/-- What stands before the default holds no assignment. -/
theorem Plain.skims_front (h : p.Plain) : Skims p.front := by
  have harrows : Arrows p.label := arrows_of_equals fun hc => (h.label_plain '=' hc).2 (by decide)
  rw [front]
  refine (h.label_phrase.skims harrows).append harrows.getLast?_ne ?_
  cases htype : p.type? with
  | none => exact skims_of_closed (Extract.eq_false_of_any rfl) (by decide) (by decide)
  | some type =>
    obtain ⟨hphrase, harrows⟩ := h.type type htype
    have hcolon : Skims [':', ' '] :=
      skims_of_closed (Extract.eq_false_of_any rfl) (by decide) (by decide)
    exact hcolon.append (by decide) (hphrase.skims harrows)

/-- **Defaults.** The search for an equals sign finds the one before the default. -/
theorem Plain.findTopLevel?_equals (h : p.Plain) :
    findTopLevel? p.text '=' = p.default?.map fun _ => p.front.length + 1 := by
  rw [findTopLevel?, text, h.skims_front none p.back (by simp), back]
  cases p.default? with
  | none => rfl
  | some default =>
    -- With blanks around it the sign is no part of a comparison or an arrow.
    have hahead (previous : Option Char) :
        topLevelAhead? '=' none 0 previous (' ' :: '=' :: ' ' :: default) = some 1 := by
      simp [topLevelAhead?, isQuote, isTypeOpener, isOpener, isCloser, assigns]
    rw [Option.elim_some, hahead, Option.map_some, Option.map_some, Nat.add_comm]

/-- The blank between what stands before the default and the equals sign. -/
def gap (p : ParameterText) : List Char :=
  p.default?.elim [] fun _ => [' ']

theorem eq_blank_of_mem_gap {c : Char} (h : c ∈ p.gap) : c = ' ' := by
  rw [gap] at h
  cases hdefault : p.default? with
  | none =>
    rw [hdefault] at h
    contradiction
  | some default =>
    rw [hdefault] at h
    exact List.mem_singleton.mp h

/-- Trimming takes the blank away. -/
theorem trim_append_gap {text : List Char} (h : squeeze text = text) :
    trim (text ++ p.gap) = text := by
  rw [gap]
  cases p.default? with
  | none => rw [Option.elim_none, List.append_nil, trim_of_squeezed h]
  | some default => rw [Option.elim_some, trim_concat_blank rfl, trim_of_squeezed h]

/-- The text up to the equals sign, or all of it, is what stands before the default. -/
theorem Plain.take_equals (h : p.Plain) :
    p.text.take ((findTopLevel? p.text '=').getD p.text.length) = p.front ++ p.gap := by
  rw [h.findTopLevel?_equals, text, back, gap]
  cases p.default? with
  | none => simp
  | some default => simp [List.take_append]

/-- What stands behind the equals sign is the default. -/
theorem Plain.drop_equals (h : p.Plain) :
    ((findTopLevel? p.text '=').elim [] fun equals => trim (p.text.drop (equals + 1))) =
      p.default?.getD [] := by
  rw [h.findTopLevel?_equals]
  cases hdefault : p.default? with
  | none => rfl
  | some default =>
    have hphrase := (h.default default hdefault).1
    have hdrop : p.text.drop (p.front.length + 1 + 1) = ' ' :: default := by
      rw [text, Nat.add_assoc, List.drop_length_add_append, back, hdefault]
      rfl
    show trim (p.text.drop (p.front.length + 1 + 1)) = default
    rw [hdrop, trim_cons_blank rfl, trim_of_squeezed hphrase.squeezed]

/-- **Parts.** A printed parameter is taken apart into its label, its type and its default. -/
theorem Plain.parameterParts_text (h : p.Plain) :
    ∃ head type, parameterParts p.text = (head, type, p.default?.getD []) ∧
      trim head = p.label ∧ trim type = p.type?.getD [] := by
  have hlabel := h.label_plain
  have hsqueezed := h.label_phrase.squeezed
  have htake := h.take_equals
  cases htype : p.type? with
  | none =>
    have hfront : p.front = p.label := by simp [front, htype]
    rw [hfront] at htake
    -- A colon before the equals sign would stand in the label.
    have hcolon (colon : Nat) (hfound : findTopLevel? p.text ':' = some colon) :
        ¬ colon < (findTopLevel? p.text '=').getD p.text.length := by
      intro hbefore
      have hget := getElem?_of_topLevelAhead? ':' p.text hfound
      rw [← List.getElem?_take_of_lt hbefore, htake] at hget
      have hmem := List.mem_of_getElem? hget
      rw [List.mem_append] at hmem
      rcases hmem with hmem | hmem
      · exact (hlabel ':' hmem).2 (by decide)
      · exact absurd (eq_blank_of_mem_gap hmem) (by decide)
    have hparts := parameterParts_untyped hcolon
    rw [htake, h.drop_equals] at hparts
    exact ⟨_, _, hparts, trim_append_gap hsqueezed, rfl⟩
  | some type =>
    have hphrase := (h.type type htype).1
    have hfront : p.front = p.label ++ ':' :: ' ' :: type := by simp [front, htype]
    have hfound : findTopLevel? p.text ':' = some p.label.length := by
      rw [text, hfront, List.append_assoc]
      exact findTopLevel?_plain rfl (fun c hc => (hlabel c hc).1)
        (fun hc => (hlabel ':' hc).2 (by decide)) _
    have hbefore : p.label.length < (findTopLevel? p.text '=').getD p.text.length := by
      have hlength := congrArg List.length htake
      rw [List.length_take, hfront] at hlength
      simp only [List.length_append, List.length_cons] at hlength
      omega
    have hparts := parameterParts_typed hfound hbefore
    rw [htake, h.drop_equals, hfront, List.append_assoc] at hparts
    refine ⟨_, _, hparts, ?_, ?_⟩
    · rw [List.take_left, trim_of_squeezed hsqueezed]
    · rw [List.drop_length_add_append]
      exact (trim_cons_blank rfl _).trans (trim_append_gap hphrase.squeezed)

/-- The question mark at the end of a label is dropped. -/
theorem Plain.dropEndWhile_label (h : p.Plain) : dropEndWhile (· == '?') p.label = p.name := by
  obtain ⟨hinked, hname⟩ := isName_iff.mp h.name
  have hkept : dropEndWhile (· == '?') p.name = p.name := by
    refine dropEndWhile_of_forall fun c hc => ?_
    rw [beq_eq_false_iff_ne]
    rintro rfl
    exact (hname '?' hc).2 (by decide)
  rw [label]
  cases p.marked with
  | false => rw [if_neg Bool.false_ne_true, List.append_nil, hkept]
  | true =>
    rw [if_pos rfl]
    exact (List.rdropWhile_concat_pos _ _ _ rfl).trans hkept

/-- A label tells by its last character whether it is marked. -/
theorem Plain.getLast?_label (h : p.Plain) : (p.label.getLast? == some '?') = p.marked := by
  obtain ⟨hinked, hname⟩ := isName_iff.mp h.name
  rw [label]
  cases p.marked with
  | true => simp
  | false =>
    rw [if_neg Bool.false_ne_true, List.append_nil, beq_eq_false_iff_ne]
    intro hlast
    exact (hname '?' (List.mem_of_getLast? hlast)).2 (by decide)

/-- A name that is no modifier is not taken for one. -/
theorem Plain.modifiers_kept (h : p.Plain) (hname : String.ofList p.name ∉ modifiers) :
    parameterModifiers.replaceAll (fun _ => []) p.text = p.text := by
  obtain ⟨hinked, hplain⟩ := isName_iff.mp h.name
  let rest := (if p.marked then ['?'] else []) ++ (p.type?.elim [] fun type => ':' :: ' ' :: type) ++
    p.back
  have htext : p.text = p.name ++ rest := by simp [text, front, label, rest]
  rw [htext]
  apply Source.modifiers_kept (isSpace_of_isName h.name)
  · obtain ⟨c, others, hcons⟩ := List.exists_cons_of_ne_nil hinked
    rw [hcons] at hplain ⊢
    rintro hsign
    obtain rfl : c = '@' := Option.some.inj hsign
    exact (hplain '@' List.mem_cons_self).2 (by decide)
  · -- Behind the name stands a mark, a colon or a blank, if anything does.
    have hhead : rest.head? = none ∨ ∃ c ∈ ['?', ':', ' '], rest.head? = some c := by
      simp only [rest, back]
      cases p.marked <;> cases p.type? <;> cases p.default? <;> simp
    rcases hhead with hnone | ⟨c, hc, hsome⟩
    · rw [hnone]
      rfl
    · rw [hsome, Option.any_some]
      have hmarks : ['?', ':', ' '].any CharSet.letters.mem = false := by decide
      exact Extract.eq_false_of_any hmarks c hc
  · intro word hword hsame
    rw [hsame, String.ofList_toList] at hname
    contradiction

theorem nonempty?_getD {text? : Option (List Char)} (h : ∀ text ∈ text?, text ≠ []) :
    nonempty? (text?.getD []) = text?.map String.ofList := by
  cases text? with
  | none => rfl
  | some text =>
    have hne := h text rfl
    simp [nonempty?, hne]

/-- **One parameter.** A printed parameter is read back. -/
theorem Plain.parameter?_text (h : p.Plain) (hname : String.ofList p.name ∉ modifiers) :
    parameter? p.text = some p.parameter := by
  obtain ⟨head, type, hparts, hhead, htype⟩ := h.parameterParts_text
  have hne : p.text.isEmpty = false := by simpa using h.item_text.inked
  have hnameNe : p.name.isEmpty = false := by simpa using (isName_iff.mp h.name).1
  have hnameTrim : trim p.name = p.name :=
    trim_of_squeezed (squeeze_of_inked (isSpace_of_isName h.name))
  have hdefault : (!(p.default?.getD []).isEmpty) = p.default?.isSome := by
    cases hdefault : p.default? with
    | none => rfl
    | some default => simpa using (h.default default hdefault).1.inked
  rw [parameter?, h.item_text.squeezed, h.modifiers_kept hname]
  simp only [hne, hparts, hhead, htype, h.dropEndWhile_label, hnameTrim, hnameNe, h.getLast?_label,
    hdefault]
  rw [nonempty?_getD fun type htype => (h.type type htype).1.inked,
    nonempty?_getD fun default hdefault => (h.default default hdefault).1.inked]
  rfl

end ParameterText

/-! ## Reading what is printed -/

/-- **Parameter lists.** Reading a list of parameters is the inverse of printing it: each of them
comes back in its place with its name, its type, its default, and whether it may be left out. -/
theorem parameters_printed (ps : List ParameterText) (hplain : ∀ p ∈ ps, p.Plain)
    (hnames : ∀ p ∈ ps, String.ofList p.name ∉ modifiers) :
    parameters (join ", ".toList (ps.map text)) = ps.map parameter := by
  have hread : ∀ p ∈ ps, parameter? p.text = some p.parameter :=
    fun p hp => (hplain p hp).parameter?_text (hnames p hp)
  rw [parameters, splitTopLevel_parameters hplain, List.filterMap_map]
  calc
    ps.filterMap (parameter? ∘ text) = ps.filterMap (some ∘ parameter) :=
      List.filterMap_congr hread
    _ = ps.map parameter := congrFun List.filterMap_eq_map ps

/-- Nested generics, a function type, an object type with a conditional default, and a default that
is a function. -/
theorem parameters_printed_nested :
    let ps : List ParameterText := [
      ⟨"items".toList, false, some "Map<K, Set<{ a: A }>>".toList, none⟩,
      ⟨"render".toList, true, some "(a: A, b?: B) => void".toList, none⟩,
      ⟨"$at".toList, false, some "{ a: A; b: [B, C] }".toList, some "f ? { a, b } : g(a, b)".toList⟩,
      ⟨"then_".toList, false, none, some "(x) => g<A, B>(x)".toList⟩]
    (∀ p ∈ ps, p.Plain) ∧ (∀ p ∈ ps, String.ofList p.name ∉ modifiers) ∧
      join ", ".toList (ps.map text) = ("items: Map<K, Set<{ a: A }>>, " ++
        "render?: (a: A, b?: B) => void, $at: { a: A; b: [B, C] } = f ? { a, b } : g(a, b), " ++
        "then_ = (x) => g<A, B>(x)").toList ∧
      parameters (join ", ".toList (ps.map text)) = [
        ⟨"items", some "Map<K, Set<{ a: A }>>", false, none⟩,
        ⟨"render", some "(a: A, b?: B) => void", true, none⟩,
        ⟨"$at", some "{ a: A; b: [B, C] }", true, some "f ? { a, b } : g(a, b)"⟩,
        ⟨"then_", none, true, some "(x) => g<A, B>(x)"⟩] := by
  intro ps
  have hplain : ∀ p ∈ ps, p.Plain := by decide +kernel
  have hnames : ∀ p ∈ ps, String.ofList p.name ∉ modifiers := by decide +kernel
  refine ⟨hplain, hnames, by decide +kernel, ?_⟩
  exact (parameters_printed ps hplain hnames).trans (by decide +kernel)

/-- Behind a modifier that is taken away no name is left before the equals sign. -/
theorem ParameterText.Plain.parameter?_modifier {p : ParameterText} {default : List Char}
    (h : p.Plain) (hname : String.ofList p.name ∈ modifiers)
    (htext : p.text = p.name ++ ' ' :: '=' :: ' ' :: default) : parameter? p.text = none := by
  have hstripped : parameterModifiers.replaceAll (fun _ => []) p.text = '=' :: ' ' :: default := by
    have hword : parameterModifiers.replaceAll (fun _ => [])
        ((String.ofList p.name).toList ++ ' ' :: '=' :: ' ' :: default) = '=' :: ' ' :: default :=
      modifiers_stripped hname rfl rfl
    rwa [String.toList_ofList, ← htext] at hword
  have hequals : findTopLevel? ('=' :: ' ' :: default) '=' = some 0 := by
    simp [findTopLevel?, topLevelAhead?, isQuote, isTypeOpener, isOpener, isCloser, assigns]
  have hparts : parameterParts ('=' :: ' ' :: default) = _ := parameterParts_untyped fun colon _ => by
    rw [hequals]
    exact Nat.not_lt_zero colon
  rw [parameter?, h.item_text.squeezed, hstripped]
  simp only [hparts, hequals]
  rfl

/-- **Assigned parameters.** A parameter without a type that has a default is read back, unless its
name is one of the modifiers: then the name is taken away and no parameter is left. -/
theorem parameters_assigned (name default : List Char) (hname : Extract.isIdentifier name = true)
    (hdefault : Phrase [','] default) (hequals : '=' ∉ default) :
    parameters (name ++ " = ".toList ++ default) =
      if String.ofList name ∈ modifiers then []
      else [{ name := String.ofList name, isOptional := true,
              defaultValue := some (String.ofList default) }] := by
  let p : ParameterText := ⟨name, false, none, some default⟩
  have hplain : p.Plain := {
    name := isName_of_isIdentifier hname
    type := fun type htype => by contradiction
    default := fun d hd => by
      obtain rfl : default = d := Option.some.inj hd
      exact ⟨hdefault, arrows_of_equals hequals⟩ }
  have htext : p.text = p.name ++ ' ' :: '=' :: ' ' :: default := by
    simp [text, front, label, back, p]
  have hprinted : name ++ " = ".toList ++ default = p.text := by simp [htext, p]
  have hsplit : splitTopLevel p.text [','] = [p.text] := by
    have hlist := splitTopLevel_parameters (List.forall_mem_singleton.mpr hplain)
    rwa [List.map_singleton, join_singleton] at hlist
  rw [hprinted, parameters, hsplit]
  split
  · rename_i hmodifier
    rw [List.filterMap_cons_none (hplain.parameter?_modifier hmodifier htext), List.filterMap_nil]
  · rename_i hother
    rw [List.filterMap_cons_some (hplain.parameter?_text hother)]
    rfl

/-- The parameter `readonly` is lost with its default; one whose name only starts like it is not. -/
theorem parameters_assigned_readonly :
    (Extract.isIdentifier "readonly".toList = true ∧ Phrase [','] "1".toList ∧ '=' ∉ "1".toList ∧
      parameters "readonly = 1".toList = []) ∧
    Extract.isIdentifier "readonlyAt".toList = true ∧ Phrase [','] "[f(a, b), <T>c]".toList ∧
      '=' ∉ "[f(a, b), <T>c]".toList ∧
      parameters "readonlyAt = [f(a, b), <T>c]".toList =
        [⟨"readonlyAt", none, true, some "[f(a, b), <T>c]"⟩] := by
  have hname : Extract.isIdentifier "readonly".toList = true := by decide +kernel
  have hdefault : Phrase [','] "1".toList := by decide +kernel
  have hequals : '=' ∉ "1".toList := by decide
  have hother : Extract.isIdentifier "readonlyAt".toList = true := by decide +kernel
  have hcall : Phrase [','] "[f(a, b), <T>c]".toList := by decide +kernel
  have hnone : '=' ∉ "[f(a, b), <T>c]".toList := by decide
  refine ⟨⟨hname, hdefault, hequals, ?_⟩, hother, hcall, hnone, ?_⟩
  · exact (parameters_assigned _ _ hname hdefault hequals).trans (by decide +kernel)
  · exact (parameters_assigned _ _ hother hcall hnone).trans (by decide +kernel)

end

end CodeSurvey.Source
