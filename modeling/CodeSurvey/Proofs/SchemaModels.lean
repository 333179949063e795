import CodeSurvey.Proofs.Balance
import CodeSurvey.Proofs.LineFeeds
import CodeSurvey.Proofs.LineSpans
import CodeSurvey.Proofs.Places
import CodeSurvey.Proofs.Sections

/-!
# Models of schema files

Reading the models of a schema is the inverse of printing them. A printed schema is a text in
sections: each model has its header at the start of a line, and nothing in its body can be taken for
a header, since the brace that closes the body stands before the next one that opens.

- `FieldText`, `TableText`, `ModelText`: what is printed, with its plainness.
- `breakLines_printed`: the lines of a body.
- `FieldText.Plain.schemaLine?_text`, `TableText.Plain.schemaLine?_text`: what is read from a line.
- `sectioned_models`: where headers stand.
- `schemaModels_printed`: what is printed is read back.
-/

namespace CodeSurvey.Extract

open Text Source Pattern

/-! ## Printed schemas -/

/-- ASCII letters, ASCII digits and the underscore. -/
def isAsciiWord (c : Char) : Bool :=
  c.toNat < 128 && isWord c

/-- ASCII characters that print, without the braces. -/
def isInner (c : Char) : Bool :=
  32 ≤ c.toNat && c.toNat < 127 && c != '{' && c != '}'

/-- A word of ASCII characters. -/
structure AsciiWord (text : List Char) : Prop where
  inked : text ≠ []
  chars : ∀ c ∈ text, isAsciiWord c = true

instance (text : List Char) : Decidable (AsciiWord text) :=
  decidable_of_iff (text ≠ [] ∧ ∀ c ∈ text, isAsciiWord c = true)
    ⟨fun h => ⟨h.1, h.2⟩, fun h => ⟨h.inked, h.chars⟩⟩

/-- Blanks and tabs, at least one. -/
structure Gap (text : List Char) : Prop where
  inked : text ≠ []
  chars : ∀ c ∈ text, c = ' ' ∨ c = '\t'

instance (text : List Char) : Decidable (Gap text) :=
  decidable_of_iff (text ≠ [] ∧ ∀ c ∈ text, c = ' ' ∨ c = '\t')
    ⟨fun h => ⟨h.1, h.2⟩, fun h => ⟨h.inked, h.chars⟩⟩

/-- A mark that is there or not. -/
def markText (on : Bool) (mark : String) : List Char :=
  if on then mark.toList else []

/-- The parts of a field as it is printed. -/
structure FieldText where
  indent : List Char
  name : List Char
  gap : List Char
  type : List Char
  isList : Bool
  isOptional : Bool
  attributes : List Char

namespace FieldText

/-- What stands before the attributes. -/
def core (f : FieldText) : List Char :=
  f.name ++ (f.gap ++ (f.type ++ (markText f.isList "[]" ++ markText f.isOptional "?")))

/-- The line of the field. -/
def text (f : FieldText) : List Char :=
  f.indent ++ (f.core ++ f.attributes)

/-- The record of the field. -/
def property (f : FieldText) : Property where
  name := String.ofList f.name
  type := some (String.ofList (f.type ++ markText f.isList "[]"))
  isOptional := f.isOptional

/-- The line is indented, name and type are words, and attributes relate the field to nothing. -/
structure Plain (f : FieldText) : Prop where
  indent : Gap f.indent
  name : AsciiWord f.name
  gap : Gap f.gap
  type : AsciiWord f.type
  attributes : f.attributes = [] ∨ " @".toList <+: f.attributes
  inner : ∀ c ∈ f.attributes, isInner c = true
  unrelated : contains f.attributes "@relation".toList = false

instance (f : FieldText) : Decidable f.Plain :=
  decidable_of_iff ((Gap f.indent ∧ AsciiWord f.name ∧ Gap f.gap ∧ AsciiWord f.type) ∧
      (f.attributes = [] ∨ " @".toList <+: f.attributes) ∧
      (∀ c ∈ f.attributes, isInner c = true) ∧ contains f.attributes "@relation".toList = false)
    ⟨fun ⟨⟨hindent, hname, hgap, htype⟩, hattributes, hinner, hunrelated⟩ =>
        ⟨hindent, hname, hgap, htype, hattributes, hinner, hunrelated⟩,
      fun h => ⟨⟨h.indent, h.name, h.gap, h.type⟩, h.attributes, h.inner, h.unrelated⟩⟩

end FieldText

/-- The parts of a line that names a table. -/
structure TableText where
  indent : List Char
  name : List Char

namespace TableText

/-- What stands in front of the name and its quotes. -/
def label : List Char :=
  "@@map(".toList

/-- What stands behind the indentation. -/
def core (t : TableText) : List Char :=
  label ++ ("\"".toList ++ (t.name ++ ("\"".toList ++ ")".toList)))

/-- The line. -/
def text (t : TableText) : List Char :=
  t.indent ++ t.core

/-- The line is indented, and the name holds no quotes. -/
structure Plain (t : TableText) : Prop where
  indent : Gap t.indent
  inked : t.name ≠ []
  inner : ∀ c ∈ t.name, isInner c = true
  quotes : '"' ∉ t.name

instance (t : TableText) : Decidable t.Plain :=
  decidable_of_iff (Gap t.indent ∧ t.name ≠ [] ∧ (∀ c ∈ t.name, isInner c = true) ∧ '"' ∉ t.name)
    ⟨fun ⟨hindent, hinked, hinner, hquotes⟩ => ⟨hindent, hinked, hinner, hquotes⟩,
      fun h => ⟨h.indent, h.inked, h.inner, h.quotes⟩⟩

end TableText

/-- The parts of a model: the line feeds before it, its name, its fields, and between them the line
that names its table. -/
structure ModelText where
  gap : List Char
  name : List Char
  above : List FieldText
  table? : Option TableText
  below : List FieldText

namespace ModelText

/-- All fields. -/
def fields (m : ModelText) : List FieldText :=
  m.above ++ m.below

/-- The lines between the braces. -/
def lines (m : ModelText) : List (List Char) :=
  m.above.map FieldText.text ++ (m.table?.toList.map TableText.text ++ m.below.map FieldText.text)

/-- What stands between the braces. -/
def inner (m : ModelText) : List Char :=
  m.lines.flatMap ('\n' :: ·) ++ ['\n']

/-- The word in front of the name. -/
def keyword : List Char :=
  "model".toList

/-- The header without its brace. -/
def front (m : ModelText) : List Char :=
  keyword ++ ([' '] ++ (m.name ++ [' ']))

/-- The model as a section of the schema. -/
def toSection (m : ModelText) : Section where
  lead := m.gap
  header := m.front ++ ['{']
  body := m.inner ++ ['}']

/-- The record of the model, given the names of all models and the text before its header. -/
def record (m : ModelText) (path : String) (names : List (List Char)) (before : List Char) :
    Model where
  name := String.ofList m.name
  filePath := path
  lineStart := 1 + count '\n' before
  fields := m.fields.map FieldText.property
  relations := ((m.fields.map (·.type)).filter (names.contains ·)).map String.ofList |>.eraseDups
  tableName := some (String.ofList ((m.table?.map TableText.name).getD (m.name.map Char.toLower)))
  origin := .schema

/-- The name is a word, and every line is as it should be. -/
structure Plain (m : ModelText) : Prop where
  gap : ∀ c ∈ m.gap, c = '\n'
  name : AsciiWord m.name
  fields : ∀ f ∈ m.fields, f.Plain
  table : ∀ t ∈ m.table?, t.Plain

instance (m : ModelText) : Decidable m.Plain :=
  decidable_of_iff ((∀ c ∈ m.gap, c = '\n') ∧ AsciiWord m.name ∧ (∀ f ∈ m.fields, f.Plain) ∧
      ∀ t ∈ m.table?.toList, t.Plain)
    ⟨fun ⟨hgap, hname, hfields, htable⟩ =>
        ⟨hgap, hname, hfields, fun t ht => htable t (Option.mem_toList.mpr ht)⟩,
      fun h => ⟨h.gap, h.name, h.fields, fun t ht => h.table t (Option.mem_toList.mp ht)⟩⟩

end ModelText

/-! ## Characters -/

variable {text rest : List Char}

theorem AsciiWord.isWord_of_mem (h : AsciiWord text) : ∀ c ∈ text, isWord c = true :=
  fun c hc => (Bool.and_eq_true_iff.mp (h.chars c hc)).2

theorem AsciiWord.isSpace_of_mem (h : AsciiWord text) : ∀ c ∈ text, isSpace c = false := by
  intro c hc
  by_contra hspace
  rw [Bool.not_eq_false] at hspace
  have hword := h.isWord_of_mem c hc
  rw [isWord_of_isSpace hspace] at hword
  contradiction

theorem Gap.isSpace_of_mem (h : Gap text) : ∀ c ∈ text, isSpace c = true := by
  intro c hc
  rcases h.chars c hc with rfl | rfl <;> rfl

/-- Another character is not in a word. -/
theorem AsciiWord.notMem {c : Char} (h : AsciiWord text) (hc : isAsciiWord c = false) :
    c ∉ text := by
  intro hmem
  rw [h.chars c hmem] at hc
  contradiction

theorem isInner_of_isAsciiWord {c : Char} (h : isAsciiWord c = true) : isInner c = true := by
  have hascii := of_decide_eq_true (Bool.and_eq_true_iff.mp h).1
  have hall : ∀ n < 128, isAsciiWord (Char.ofNat n) = true → isInner (Char.ofNat n) = true := by
    decide +kernel
  have hc := hall c.toNat hascii
  rw [Char.ofNat_toNat] at hc
  exact hc h

/-- Characters that a line of a model may hold: no braces, and none that ends a line. -/
def isLineInner (c : Char) : Bool :=
  c != '{' && c != '}' && !isLineBreak c

theorem isLineInner_of_isInner {c : Char} (h : isInner c = true) : isLineInner c = true := by
  simp only [isInner, Bool.and_eq_true, decide_eq_true_eq] at h
  obtain ⟨⟨⟨hlow, hhigh⟩, hopen⟩, hclose⟩ := h
  have hbreak : isLineBreak c = false := by
    simp only [isLineBreak, Bool.or_eq_false_iff, Bool.and_eq_false_iff, decide_eq_false_iff_not,
      beq_eq_false_iff_ne]
    omega
  simp only [isLineInner, hopen, hclose, hbreak, Bool.not_false, Bool.and_self]

theorem AsciiWord.isLineInner_of_mem (h : AsciiWord text) : ∀ c ∈ text, isLineInner c = true :=
  fun c hc => isLineInner_of_isInner (isInner_of_isAsciiWord (h.chars c hc))

theorem Gap.isLineInner_of_mem (h : Gap text) : ∀ c ∈ text, isLineInner c = true := by
  intro c hc
  rcases h.chars c hc with rfl | rfl <;> rfl

theorem isLineInner_markText {on : Bool} {mark : String}
    (h : ∀ c ∈ mark.toList, isLineInner c = true) : ∀ c ∈ markText on mark, isLineInner c = true := by
  cases on with
  | true => exact h
  | false => exact fun c hc => absurd hc List.not_mem_nil

/-- No blank stands at the start of a word. -/
theorem AsciiWord.head? (h : AsciiWord text) (rest : List Char) :
    (text ++ rest).head?.any CharSet.space.mem = false := by
  obtain ⟨c, others, rfl⟩ := List.exists_cons_of_ne_nil h.inked
  exact h.isSpace_of_mem c List.mem_cons_self

/-- No word starts with a blank. -/
theorem Gap.head? (h : Gap text) (rest : List Char) :
    (text ++ rest).head?.any CharSet.word.mem = false := by
  obtain ⟨c, others, rfl⟩ := List.exists_cons_of_ne_nil h.inked
  exact isWord_of_isSpace (h.isSpace_of_mem c List.mem_cons_self)

/-- A mark is read if it is there. -/
theorem prefers_markText (key : String) {mark : String} {c : Char} {others : List Char}
    (hmark : mark.toList = c :: others) (on : Bool) (hrest : rest.head? ≠ some c) (offset : Nat) :
    (opt (capture key (lit mark))).Prefers (markText on mark) rest offset
      (if on then [⟨key, offset, offset + (markText on mark).length⟩] else []) := by
  cases on with
  | true => exact ((takes_lit mark rest offset).capture key).prefers.opt
  | false => exact (((refuses_lit c hmark hrest).capture key).opt offset).prefers

/-- Texts whose first characters differ. -/
theorem startsWith_eq_false {start : List Char} {c d : Char} (htext : text.head? = some c)
    (hstart : start.head? = some d) (hne : c ≠ d) : startsWith text start = false := by
  obtain ⟨more, rfl⟩ := List.head?_eq_some_iff.mp htext
  obtain ⟨others, rfl⟩ := List.head?_eq_some_iff.mp hstart
  exact Bool.and_eq_false_imp.mpr fun heq => absurd (beq_iff_eq.mp heq).symm hne

/-- ASCII text in lower case. -/
theorem lower_of_ascii (h : ∀ c ∈ text, c.toNat < 128) : lower text = text.map Char.toLower := by
  have hall (before : List Char) : lowerAfter before text = text.map Char.toLower := by
    induction text generalizing before with
    | nil => rfl
    | cons c text ih =>
      obtain ⟨hc, htext⟩ := List.forall_mem_cons.mp h
      rw [lowerAfter, if_pos hc, ih htext]
      rfl
  exact hall []

/-! ## Lines -/

theorem breakLinesFrom_line (h : ∀ c ∈ text, isLineBreak c = false) (rest : List Char) :
    ∀ line : List Char, breakLinesFrom line (text ++ '\n' :: rest) =
      (line.reverse ++ text) :: breakLinesFrom [] rest := by
  induction text with
  | nil =>
    intro line
    rw [List.nil_append, List.append_nil, breakLinesFrom.eq_def]
    simp [isLineBreak]
  | cons c text ih =>
    intro line
    obtain ⟨hc, htext⟩ := List.forall_mem_cons.mp h
    have hreturn : c ≠ '\r' := by
      rintro rfl
      exact absurd hc (by decide)
    rw [List.cons_append, breakLinesFrom, hc]
    · simp only [Bool.false_eq_true, if_false]
      rw [ih htext, List.reverse_cons, List.append_assoc, List.singleton_append]
    · exact fun _ heq _ => hreturn heq

/-- Lines that are printed behind line feeds are read back; the text before the first line feed is a
line too. -/
theorem breakLines_printed {lines : List (List Char)}
    (h : ∀ line ∈ lines, ∀ c ∈ line, isLineBreak c = false) :
    breakLines (lines.flatMap ('\n' :: ·) ++ ['\n']) = [] :: lines := by
  have hall : ∀ first : List Char, (∀ c ∈ first, isLineBreak c = false) →
      breakLinesFrom [] (first ++ (lines.flatMap ('\n' :: ·) ++ ['\n'])) = first :: lines := by
    induction lines with
    | nil =>
      intro first hfirst
      exact breakLinesFrom_line hfirst [] []
    | cons line lines ih =>
      intro first hfirst
      obtain ⟨hline, hlines⟩ := List.forall_mem_cons.mp h
      rw [List.flatMap_cons, List.cons_append, List.cons_append, breakLinesFrom_line hfirst,
        List.append_assoc, ih hlines line hline]
      rfl
  exact hall [] fun c hc => absurd hc List.not_mem_nil

/-! ## Lines of fields -/

namespace FieldText

variable {f : FieldText}

/-- The last character in front of the attributes is no blank. -/
theorem Plain.getLast?_core (h : f.Plain) : ∃ c, f.core.getLast? = some c ∧ isSpace c = false := by
  have htype : ∃ c, f.type.getLast? = some c ∧ isSpace c = false :=
    ⟨_, List.getLast?_eq_some_getLast h.type.inked,
      h.type.isSpace_of_mem _ (List.getLast_mem h.type.inked)⟩
  obtain ⟨c, hlast, hinked⟩ := htype
  simp only [core, markText, List.getLast?_append, hlast]
  cases f.isOptional <;> cases f.isList <;> exact ⟨_, rfl, by first | exact hinked | decide⟩

/-- The line begins with the name. -/
theorem Plain.head?_core (h : f.Plain) (rest : List Char) :
    ∃ c, (f.core ++ rest).head? = some c ∧ isAsciiWord c = true := by
  obtain ⟨c, others, hname⟩ := List.exists_cons_of_ne_nil h.name.inked
  refine ⟨c, by rw [core, hname]; rfl, h.name.chars c ?_⟩
  rw [hname]
  exact List.mem_cons_self

/-- Trimming takes away the indentation, and blanks behind the attributes. -/
theorem Plain.trim_text (h : f.Plain) : trim f.text = f.core ++ trimEnd f.attributes := by
  obtain ⟨last, hlast, hinked⟩ := h.getLast?_core
  rw [text, trim_append_blanks h.indent.isSpace_of_mem, trim_of_inked_start,
    trimEnd_append_inked hlast hinked]
  intro c hc
  obtain ⟨d, hd, hword⟩ := h.head?_core f.attributes
  rw [hd] at hc
  obtain rfl := Option.some.inj hc
  exact AsciiWord.isSpace_of_mem ⟨List.cons_ne_nil d [], List.forall_mem_singleton.mpr hword⟩ d
    List.mem_cons_self

/-- The spans that the pattern keeps, the last one first. -/
def captures (f : FieldText) : List Capture :=
  let type := f.name.length + f.gap.length
  let list := type + f.type.length
  let optional := list + (markText f.isList "[]").length
  (if f.isOptional then [⟨"optional", optional, optional + (markText f.isOptional "?").length⟩]
    else []) ++ ((if f.isList then [⟨"list", list, optional⟩] else []) ++
      [⟨"type", type, list⟩, ⟨"name", 0, f.name.length⟩])

/-- Attributes stand behind a blank. -/
theorem Plain.head?_attributes (h : f.Plain) :
    ∀ c, (trimEnd f.attributes).head? = some c → c = ' ' := by
  intro c hc
  rcases h.attributes with hnone | ⟨more, hmore⟩
  · rw [hnone] at hc
    contradiction
  · rw [← hmore, trimEnd_append_inked (c := '@') rfl (by decide)] at hc
    exact (Option.some.inj hc).symm

theorem Plain.head?_behind_type (h : f.Plain) {set : CharSet} (hlist : set.mem '[' = false)
    (hmark : set.mem '?' = false) (hblank : set.mem ' ' = false) :
    (markText f.isList "[]" ++ (markText f.isOptional "?" ++ trimEnd f.attributes)).head?.any
      set.mem = false := by
  have hend : (trimEnd f.attributes).head?.any set.mem = false := by
    rw [Option.any_eq_false]
    intro c hc
    rw [h.head?_attributes c hc, hblank]
  simp only [markText]
  cases f.isList with
  | true => simpa using hlist
  | false =>
    cases f.isOptional with
    | true => simpa using hmark
    | false => exact hend

/-- The pattern reads what stands before the attributes. -/
theorem Plain.matchStart?_text (h : f.Plain) :
    schemaFieldPattern.matchStart? (f.core ++ trimEnd f.attributes) =
      some ⟨f.core ++ trimEnd f.attributes, 0, f.core.length, f.captures⟩ := by
  let back := trimEnd f.attributes
  have hname (rest : List Char) : (capture "name" (many1 (one .word))).Prefers f.name
      (f.gap ++ rest) 0 [⟨"name", 0, 0 + f.name.length⟩] :=
    (prefers_many1 0 (h.gap.head? rest) h.name.isWord_of_mem h.name.inked).capture "name"
  have hgap (offset : Nat) (rest : List Char) : spaces1.Prefers f.gap (f.type ++ rest) offset [] :=
    prefers_many1 offset (h.type.head? rest) h.gap.isSpace_of_mem h.gap.inked
  have htype (offset : Nat) : (capture "type" (many1 (one .word))).Prefers f.type
      (markText f.isList "[]" ++ (markText f.isOptional "?" ++ back)) offset
      [⟨"type", offset, offset + f.type.length⟩] :=
    (prefers_many1 offset (h.head?_behind_type rfl rfl rfl) h.type.isWord_of_mem
      h.type.inked).capture "type"
  -- Attributes begin with a blank, so they are no part of the marks.
  have hblank {c : Char} (hc : c ≠ ' ') : back.head? ≠ some c :=
    fun heq => hc (h.head?_attributes c heq)
  have hbracket : (markText f.isOptional "?" ++ back).head? ≠ some '[' := by
    rw [markText]
    cases f.isOptional with
    | true => exact fun heq => absurd (Option.some.inj heq) (by decide)
    | false => exact hblank (by decide)
  have hlist := prefers_markText "list" (rfl : "[]".toList = _) f.isList hbracket
  have hoptional := prefers_markText "optional" (rfl : "?".toList = _) f.isOptional
    (hblank (by decide))
  have hread := ((((hname _).seq (hgap _ _)).seq (htype _)).seq (hlist _)).seq (hoptional _)
  have hmatch := matchStart?_prefers hread
  simp only [List.append_assoc, List.length_append, Nat.zero_add, Nat.add_assoc] at hmatch
  rw [core, captures]
  simp only [List.append_assoc, List.length_append, Nat.add_assoc]
  exact hmatch

/-- The match of a field, with these attributes behind it. -/
def found (f : FieldText) (rest : List Char) : Match :=
  ⟨f.core ++ rest, 0, f.core.length, f.captures⟩

theorem group?_name (f : FieldText) (rest : List Char) :
    (f.found rest).group? "name" = some f.name := by
  have hspan : (f.found rest).span? "name" = some ⟨"name", 0, f.name.length⟩ := by
    simp only [Match.span?, found, captures]
    cases f.isOptional <;> cases f.isList <;> rfl
  have hname := between_append [] f.name (f.gap ++ (f.type ++ (markText f.isList "[]" ++
    (markText f.isOptional "?" ++ rest))))
  simp only [List.nil_append, List.length_nil, Nat.zero_add] at hname
  rw [Match.group?, hspan, Option.map_some]
  simp only [found, core, List.append_assoc, hname]

theorem group?_type (f : FieldText) (rest : List Char) :
    (f.found rest).group? "type" = some f.type := by
  have hspan : (f.found rest).span? "type" = some ⟨"type", f.name.length + f.gap.length,
      f.name.length + f.gap.length + f.type.length⟩ := by
    simp only [Match.span?, found, captures]
    cases f.isOptional <;> cases f.isList <;> rfl
  have htype := between_append (f.name ++ f.gap) f.type (markText f.isList "[]" ++
    (markText f.isOptional "?" ++ rest))
  simp only [List.append_assoc, List.length_append] at htype
  rw [Match.group?, hspan, Option.map_some]
  simp only [found, core, List.append_assoc, htype]

theorem has_list (f : FieldText) (rest : List Char) : (f.found rest).has "list" = f.isList := by
  simp only [Match.has, Match.span?, found, captures]
  cases f.isOptional <;> cases f.isList <;> simp [markText]

theorem has_optional (f : FieldText) (rest : List Char) :
    (f.found rest).has "optional" = f.isOptional := by
  simp only [Match.has, Match.span?, found, captures]
  cases f.isOptional <;> cases f.isList <;> simp [markText]

/-- Nothing in the line says that the field is a relation. -/
theorem Plain.contains_relation (h : f.Plain) :
    contains (f.core ++ trimEnd f.attributes) "@relation".toList = false := by
  have hat : '@' ∉ f.core := by
    simp only [core, markText, List.mem_append, not_or]
    refine ⟨h.name.notMem (by decide), fun hmem => ?_, h.type.notMem (by decide), ?_, ?_⟩
    · exact absurd (h.gap.chars _ hmem) (by decide)
    · cases f.isList <;> decide
    · cases f.isOptional <;> decide
  rw [contains_behind rfl hat]
  by_contra hcontains
  rw [Bool.not_eq_false, contains_iff_infix] at hcontains
  have hprefix : trimEnd f.attributes <+: f.attributes := List.rdropWhile_prefix isSpace _
  have hrelated := contains_iff_infix.mpr (hcontains.trans hprefix.isInfix)
  rw [h.unrelated] at hrelated
  contradiction

/-- **Fields.** A printed field is read back. It is a relation if its type is a model. -/
theorem Plain.schemaLine?_text (h : f.Plain) (names : List (List Char)) :
    schemaLine? names f.text =
      some (.field f.property (String.ofList f.type) (names.contains f.type)) := by
  obtain ⟨c, hfirst, hword⟩ := h.head?_core (trimEnd f.attributes)
  have hother {d : Char} (hd : isAsciiWord d = false) : c ≠ d := by
    rintro rfl
    rw [hword] at hd
    contradiction
  have hslash : startsWith (f.core ++ trimEnd f.attributes) "//".toList = false :=
    startsWith_eq_false hfirst rfl (hother (by decide))
  have hat : startsWith (f.core ++ trimEnd f.attributes) "@@".toList = false :=
    startsWith_eq_false hfirst rfl (hother (by decide))
  have hempty : (f.core ++ trimEnd f.attributes).isEmpty = false := by
    obtain ⟨others, hline⟩ := List.head?_eq_some_iff.mp hfirst
    rw [hline]
    rfl
  have hmatch : schemaFieldPattern.matchStart? (f.core ++ trimEnd f.attributes) =
    some (f.found (trimEnd f.attributes)) := h.matchStart?_text
  simp only [schemaLine?, h.trim_text, hempty, hslash, hat, Bool.or_self, Bool.false_eq_true,
    if_false, hmatch, h.contains_relation, Bool.or_false, Option.bind_eq_bind, Option.bind_some,
    f.group?_name, f.group?_type, f.has_list, f.has_optional]
  cases hlist : f.isList <;> simp [property, markText, hlist, String.ofList_append]

/-- The line holds no braces and nothing that ends a line. -/
theorem Plain.inner_text (h : f.Plain) : ∀ c ∈ f.text, isLineInner c = true := by
  simp only [text, core, List.forall_mem_append]
  exact ⟨h.indent.isLineInner_of_mem,
    ⟨h.name.isLineInner_of_mem, h.gap.isLineInner_of_mem, h.type.isLineInner_of_mem,
      isLineInner_markText (by decide), isLineInner_markText (by decide)⟩,
    fun c hc => isLineInner_of_isInner (h.inner c hc)⟩

end FieldText

/-! ## Lines that name tables -/

namespace TableText

variable {t : TableText}

theorem Plain.trim_text (h : t.Plain) : trim t.text = t.core := by
  have hlast : t.core.getLast? = some ')' := by
    rw [core, ← List.append_assoc, ← List.append_assoc, ← List.append_assoc]
    exact List.getLast?_concat
  have hfirst : ∀ c, t.core.head? = some c → isSpace c = false := by
    intro c hc
    obtain rfl : '@' = c := Option.some.inj hc
    rfl
  rw [text, trim_append_blanks h.indent.isSpace_of_mem, trim_of_inked_start hfirst,
    trimEnd_of_inked hlast rfl]

/-- The pattern reads the name between the quotes. -/
theorem Plain.matchStart?_core (h : t.Plain) :
    tablePattern.matchStart? t.core =
      some ⟨t.core, 0, t.core.length, [⟨"table", 7, 7 + t.name.length⟩]⟩ := by
  let back := t.name ++ ("\"".toList ++ ")".toList)
  have hnone {text : List Char} (htext : text.head?.any isSpace = false) (offset : Nat) :
      spaces.Takes [] text offset [] := takes_many_nil offset htext
  have hlabel : (lit "name" ++ spaces ++ lit ":" ++ spaces).Refuses ("\"".toList ++ back) :=
    (((refuses_lit 'n' rfl (by simp)).seq _).seq _).seq _
  have hname : (many1 (noneOf "\"")).Prefers t.name ("\"".toList ++ ")".toList) 7 [] := by
    refine prefers_many1 7 rfl (fun c hc => ?_) h.inked
    have hne : '"' ≠ c := fun heq => h.quotes (heq ▸ hc)
    simpa [CharSet.mem, CharSet.ofString, CharSet.unions] using hne
  have hopen : (lit "@@map(").Prefers label ("\"".toList ++ back) 0 [] :=
    (takes_lit "@@map(" _ 0).prefers
  have hstart := ((hopen.seq_nothing (hnone rfl _)).seq_nothing (hlabel.opt _)).seq
    (takes_lit "\"" back _).prefers
  have hkept := (hstart.seq (hname.capture "table")).seq (takes_lit "\"" ")".toList _).prefers
  have hread := (hkept.seq_nothing (hnone rfl _)).seq (takes_lit ")" [] _).prefers
  have hmatch := matchStart?_prefers hread
  simp only [List.append_assoc, List.append_nil, List.nil_append] at hmatch
  exact hmatch

/-- **Tables.** The name of the table is read back. -/
theorem Plain.schemaLine?_text (h : t.Plain) (names : List (List Char)) :
    schemaLine? names t.text = some (.table (String.ofList t.name)) := by
  have hslash : startsWith t.core "//".toList = false :=
    startsWith_eq_false (rfl : _ = some '@') (rfl : _ = some '/') (by decide)
  have hat : startsWith t.core "@@".toList = true :=
    List.isPrefixOf_iff_prefix.mpr ⟨_, rfl⟩
  have hempty : t.core.isEmpty = false := rfl
  have hname : (Match.mk t.core 0 t.core.length [⟨"table", 7, 7 + t.name.length⟩]).group? "table" =
      some t.name := by
    have hmiddle := between_append (label ++ "\"".toList) t.name
      ("\"".toList ++ ")".toList)
    rw [List.append_assoc] at hmiddle
    exact congrArg some hmiddle
  simp only [schemaLine?, h.trim_text, hempty, hslash, hat, Bool.or_self, Bool.false_eq_true,
    if_false, if_true, h.matchStart?_core, Option.bind_some, hname, Option.map_some]

/-- The line holds no braces and nothing that ends a line. -/
theorem Plain.inner_text (h : t.Plain) : ∀ c ∈ t.text, isLineInner c = true := by
  simp only [text, core, List.forall_mem_append]
  exact ⟨h.indent.isLineInner_of_mem, by decide, by decide,
    fun c hc => isLineInner_of_isInner (h.inner c hc), by decide, by decide⟩

end TableText

/-! ## Models -/

namespace ModelText

variable {m : ModelText}

/-- The lines of fields. -/
def fieldLines (names : List (List Char)) (fields : List FieldText) : List SchemaLine :=
  fields.map fun f => .field f.property (String.ofList f.type) (names.contains f.type)

theorem filterMap_fields {fields : List FieldText} (h : ∀ f ∈ fields, f.Plain)
    (names : List (List Char)) :
    (fields.map FieldText.text).filterMap (schemaLine? names) = fieldLines names fields := by
  rw [List.filterMap_map, fieldLines, ← List.filterMap_eq_map]
  exact List.filterMap_congr fun f hf => (h f hf).schemaLine?_text names

/-- What the lines of a body say. -/
def said (m : ModelText) (names : List (List Char)) : List SchemaLine :=
  fieldLines names m.above ++ (m.table?.toList.map (fun t => .table (String.ofList t.name)) ++
    fieldLines names m.below)

theorem Plain.filterMap_lines (h : m.Plain) (names : List (List Char)) :
    m.lines.filterMap (schemaLine? names) = m.said names := by
  obtain ⟨habove, hbelow⟩ := List.forall_mem_append.mp h.fields
  have htable : (m.table?.toList.map TableText.text).filterMap (schemaLine? names) =
      m.table?.toList.map fun t => .table (String.ofList t.name) := by
    rw [List.filterMap_map, ← List.filterMap_eq_map]
    exact List.filterMap_congr fun t ht =>
      (h.table t (Option.mem_toList.mp ht)).schemaLine?_text names
  rw [lines, List.filterMap_append, List.filterMap_append, filterMap_fields habove, htable,
    filterMap_fields hbelow, said]

/-- The lines of fields name the fields. -/
theorem fields_said (m : ModelText) (names : List (List Char)) :
    (m.said names).filterMap SchemaLine.field? = m.fields.map FieldText.property := by
  have hall (fields : List FieldText) : (fieldLines names fields).filterMap SchemaLine.field? =
      fields.map FieldText.property := by
    rw [fieldLines, List.filterMap_map]
    exact congrFun List.filterMap_eq_map fields
  rw [said, List.filterMap_append, List.filterMap_append, hall, hall, fields, List.map_append]
  cases m.table? <;> rfl

/-- Of the types those are related to that are models. -/
theorem relations_said (m : ModelText) (names : List (List Char)) :
    (m.said names).filterMap SchemaLine.relation? =
      ((m.fields.map (·.type)).filter (names.contains ·)).map String.ofList := by
  have hall (fields : List FieldText) : (fieldLines names fields).filterMap SchemaLine.relation? =
      ((fields.map (·.type)).filter (names.contains ·)).map String.ofList := by
    induction fields with
    | nil => rfl
    | cons f fields ih =>
      rw [fieldLines, List.map_cons, List.filterMap_cons, ← fieldLines, ih, List.map_cons,
        List.filter_cons]
      cases hmodel : names.contains f.type <;>
        simp only [SchemaLine.relation?, Bool.false_eq_true, if_false, if_true,
          List.map_cons]
  rw [said, List.filterMap_append, List.filterMap_append, hall, hall, fields, List.map_append,
    List.filter_append, List.map_append]
  cases m.table? <;> rfl

/-- The table is named by the line between the fields, if there is one. -/
theorem tables_said (m : ModelText) (names : List (List Char)) :
    (m.said names).filterMap SchemaLine.table? =
      m.table?.toList.map fun t => String.ofList t.name := by
  have hnone (fields : List FieldText) :
      (fieldLines names fields).filterMap SchemaLine.table? = [] := by
    rw [fieldLines, List.filterMap_map]
    exact List.filterMap_eq_nil_iff.mpr fun _ _ => rfl
  rw [said, List.filterMap_append, List.filterMap_append, hnone, hnone, List.nil_append,
    List.append_nil]
  cases m.table? <;> rfl

/-- A line of a body holds no braces and nothing that ends a line. -/
theorem Plain.inner_lines (h : m.Plain) : ∀ line ∈ m.lines, ∀ c ∈ line, isLineInner c = true := by
  obtain ⟨habove, hbelow⟩ := List.forall_mem_append.mp h.fields
  simp only [lines, List.forall_mem_append, List.forall_mem_map]
  exact ⟨fun f hf => (habove f hf).inner_text,
    fun t ht => (h.table t (Option.mem_toList.mp ht)).inner_text,
    fun f hf => (hbelow f hf).inner_text⟩

theorem Plain.breakLines_inner (h : m.Plain) : breakLines m.inner = [] :: m.lines := by
  refine breakLines_printed fun line hline c hc => ?_
  have hinner := h.inner_lines line hline c hc
  rw [isLineInner, Bool.and_eq_true, Bool.not_eq_true'] at hinner
  exact hinner.2

/-- Between its braces a model holds no others. -/
theorem Plain.braces (h : m.Plain) : ∀ c ∈ m.inner, c ≠ '{' ∧ c ≠ '}' := by
  intro c hc
  rw [inner, List.mem_append, List.mem_flatMap, List.mem_singleton] at hc
  rcases hc with ⟨line, hline, hc⟩ | rfl
  · rcases List.mem_cons.mp hc with rfl | hc
    · decide
    · have hinner := h.inner_lines line hline c hc
      simp only [isLineInner, Bool.and_eq_true, bne_iff_ne] at hinner
      exact hinner.1
  · decide

/-! ### Headers -/

/-- The span that the rule keeps of a header. -/
def captures (m : ModelText) (start : Nat) : List Capture :=
  [⟨"name", start + 6, start + 6 + m.name.length⟩]

/-- The rule matches a header at the start of a line. -/
theorem Plain.matchHere?_header (h : m.Plain) (subject : List Char) {before : List Char}
    (rest : List Char) (offset : Nat) (hline : startsLine before = true) :
    modelRule.pattern.matchHere? subject ⟨before, m.toSection.header ++ rest, offset, []⟩ false =
      some ⟨subject, offset, offset + m.toSection.header.length, m.captures offset⟩ := by
  have hindent : (many (oneOf " \t")).Takes [] (keyword ++ ([' '] ++ (m.name ++
      ([' '] ++ ("\x7b".toList ++ rest))))) offset [] := takes_many_nil offset rfl
  have hname (place : Nat) : (capture "name" (many1 (one .word))).Prefers m.name
      ([' '] ++ ("\x7b".toList ++ rest)) place [⟨"name", place, place + m.name.length⟩] :=
    (prefers_many1 place rfl h.name.isWord_of_mem h.name.inked).capture "name"
  have hfront := hindent.prefers.seq_word "model" (h.name.head? _)
  have hmatch := matchHere?_prefers subject hline (hfront.seq (hname _)).seq_brace
  simp only [List.append_assoc, List.nil_append] at hmatch
  simp only [toSection, front, List.append_assoc]
  exact hmatch

theorem Plain.notMem_body (h : m.Plain) : '{' ∉ m.toSection.body := by
  intro hmem
  rcases List.mem_append.mp hmem with hmem | hmem
  · exact (h.braces _ hmem).1 rfl
  · exact absurd hmem (by decide)

/-- Inside a model no header is found, since its reading would have to pass the closing brace. -/
theorem Plain.passed_body (h : m.Plain) (rest : List Char) :
    Passed modelRule.pattern rest false m.toSection.body := by
  refine passed_of_refuses (fun c front back hparts => ?_) false
  apply refuses_of_not_reads
  rintro before offset kept t ⟨u, hfront, hbrace⟩
  -- In front of the brace the rule reads words and blanks only.
  have hwithin : (lineStart ++ many (oneOf " \t") ++ lit "model" ++ spaces1
      ++ capture "name" (many1 (one .word)) ++ spaces).throughout
        (·.within (.union .word .space)) = true := by decide +kernel
  obtain ⟨read, hread⟩ := hfront.exists_passes
  have hafter : c :: (back ++ rest) = read ++ '{' :: t.after := by
    have hpasses := hread.after
    have hopen := (passes_of_reads_lit hbrace).after
    rw [hopen] at hpasses
    exact hpasses
  -- The closing brace stands before the opening one, so it would have been read.
  have hnone : '{' ∉ c :: back := fun hmem =>
    h.notMem_body (hparts ▸ List.mem_append_right front hmem)
  have hclose : '}' ∈ c :: back := by
    have hlast : (front ++ c :: back).getLast? = some '}' := by
      rw [← hparts]
      exact List.getLast?_concat
    rw [List.getLast?_append_of_ne_nil _ (List.cons_ne_nil c back)] at hlast
    exact List.mem_of_getLast? hlast
  obtain ⟨others, hrest⟩ := exists_append_of_notMem hnone hafter
  have hall : read = (c :: back) ++ others := by
    rw [hrest, ← List.cons_append, ← List.append_assoc] at hafter
    exact (List.append_cancel_right hafter).symm
  have hmem := mem_of_throughout hwithin hfront hread
    (by rw [hall]; exact List.mem_append_left _ hclose)
  exact absurd hmem (by decide)

/-! ### Bodies -/

/-- The span of a header behind a text. -/
def span (m : ModelText) (content before : List Char) : Span Unit :=
  ⟨(), content, before.length, before.length + m.toSection.header.length,
    m.captures before.length⟩

variable {content before rest : List Char}

theorem group_span (hcontent : content = before ++ (m.toSection.header ++ rest)) :
    (m.span content before).group "name" = m.name := by
  have hname := between_append (before ++ (keyword ++ [' '])) m.name ([' '] ++ ['{'] ++ rest)
  have htext : content = (before ++ (keyword ++ [' '])) ++ (m.name ++
      ([' '] ++ ['{'] ++ rest)) := by
    rw [hcontent]
    simp only [toSection, front, List.append_assoc]
  rw [← htext, List.length_append] at hname
  exact hname

/-- What stands between the braces is taken for the body, if scans look that far. -/
theorem Plain.body_block (h : m.Plain) {ceiling : Int}
    (hceiling : (m.inner.length : Int) + 1 ≤ ceiling)
    (hcontent : content = before ++ (m.toSection.header ++ (m.toSection.body ++ rest))) :
    (block content (m.span content before).start ((m.span content before).stop - 1) blockFallback
      ceiling).drop ((m.span content before).stop - (m.span content before).start) =
        m.inner ++ ['}'] := by
  have hbalanced : Balanced (· == '{') (· == '}') m.inner :=
    balanced_of_none fun c hc => by simpa using h.braces c hc
  have hblock := block_headed before m.front rest blockFallback hbalanced hceiling
  have htext : content = before ++ (m.front ++ ('{' :: m.inner ++ ['}'] ++ rest)) := by
    rw [hcontent]
    simp only [toSection, List.append_assoc, List.cons_append, List.nil_append]
  have hlength : m.toSection.header.length = m.front.length + 1 := List.length_append
  have hstop : before.length + m.toSection.header.length - 1 = before.length + m.front.length := by
    omega
  have hhead : before.length + m.toSection.header.length - before.length =
      (m.front ++ ['{']).length := Nat.add_sub_cancel_left _ _
  have hbrace : m.front ++ ('{' :: m.inner ++ ['}']) =
      (m.front ++ ['{']) ++ (m.inner ++ ['}']) := by simp
  simp only [span, Span.start, Span.stop, hstop, hhead]
  rw [htext, hblock, hbrace, List.drop_left]

/-- **Models.** A printed model is read back, whatever stands before and behind it. -/
theorem Plain.buildModel_span (h : m.Plain) {limits : Limits}
    (hceiling : (m.inner.length : Int) + 1 ≤ limits.block) (info : FileInfo)
    (hcontent : content = before ++ (m.toSection.header ++ (m.toSection.body ++ rest)))
    (names : List (List Char)) :
    buildModel limits (View.ofFile info content) names (m.span content before) =
      m.record info.path names before := by
  have hbody := h.body_block hceiling hcontent
  have hfirst : (View.ofFile info content).lineAt (m.span content before).start =
      1 + count '\n' before := by
    rw [lineAt_ofFile, hcontent]
    exact congrArg (1 + count '\n' ·) List.take_left
  have hlast : (m.inner ++ ['}']).getLast? == some '}' := by
    rw [List.getLast?_concat]
    rfl
  have hempty : schemaLine? names [] = none := rfl
  have hlower : lower m.name = m.name.map Char.toLower := lower_of_ascii fun c hc =>
    of_decide_eq_true (Bool.and_eq_true_iff.mp (h.name.chars c hc)).1
  simp only [buildModel, group_span hcontent, hfirst]
  simp only [View.ofFile] at hbody ⊢
  simp only [hbody, hlast, if_true, List.dropLast_concat, h.breakLines_inner,
    List.filterMap_cons, hempty, h.filterMap_lines, fields_said, relations_said, tables_said,
    hlower]
  rw [record]
  cases m.table? <;> rfl

end ModelText

/-! ## Schemas -/

/-- A schema as it is printed: between two models a line ends, and behind the last one nothing but
line feeds stands. -/
structure PlainSchema (models : List ModelText) (ending : List Char) : Prop where
  plain : ∀ m ∈ models, m.Plain
  apart : ∀ m ∈ models.tail, m.gap ≠ []
  ending : ∀ c ∈ ending, c = '\n'

/-- The text of a schema. -/
def schemaText (models : List ModelText) (ending : List Char) : List Char :=
  sectionsText (models.map ModelText.toSection) ending

theorem passed_of_feeds (h : ∀ c ∈ text, c = '\n') (rest : List Char) :
    Passed modelRule.pattern rest true text := by
  have hopens : modelRule.pattern.opens (·.within (.ofString " \tm")) = true := by decide +kernel
  have hsurely : modelRule.pattern.surely (fun _ => true) = true := by decide +kernel
  refine passed_of_refuses (fun c front back htext => ?_) true
  obtain rfl : c = '\n' := h c (by rw [htext]; exact List.mem_append_right _ List.mem_cons_self)
  exact refuses_of_opens hopens hsurely (by decide)

theorem modelRule_onlyAtLines : modelRule.pattern.OnlyAtLines :=
  (((((onlyAtLines_lineStart _).seq _).seq _).seq _).seq _).seq _

variable {models : List ModelText} {ending : List Char}

theorem PlainSchema.sectioned (h : PlainSchema models ending) :
    Sectioned modelRule.pattern ModelText.toSection ModelText.captures models ending := by
  have hlast {m : ModelText} (hm : m ∈ models) (hne : m.gap ≠ []) :
      m.gap.getLast? = some '\n' := by
    rw [List.getLast?_eq_some_getLast hne, (h.plain m hm).gap _ (List.getLast_mem hne)]
  exact {
    lead := fun m hm _ => passed_of_feeds (h.plain m hm).gap _
    first := fun m hm => or_iff_not_imp_left.mpr (hlast (List.mem_of_mem_head? hm))
    others := fun m hm => hlast (List.mem_of_mem_tail hm) (h.apart m hm)
    header := fun m hm subject before rest offset hline =>
      (h.plain m hm).matchHere?_header subject rest offset hline
    inked := fun m _ => List.append_ne_nil_of_right_ne_nil _ (List.cons_ne_nil _ _)
    line := fun m hm => by
      simp only [ModelText.toSection, ModelText.front, List.mem_append, not_or]
      exact ⟨⟨by decide, by decide, (h.plain m hm).name.notMem (by decide), by decide⟩, by decide⟩
    body := fun m hm rest => (h.plain m hm).passed_body rest
    ending := passed_of_feeds h.ending []
    refuses := refuses_nil (by decide +kernel) }

/-- The headers are what the rule finds. -/
theorem PlainSchema.scan_models (h : PlainSchema models ending) :
    scan [modelRule] (schemaText models ending) =
      (places ModelText.toSection [] models).map fun (before, m) =>
        m.span (schemaText models ending) before := by
  have hfound := findAll_sections modelRule_onlyAtLines h.sectioned
  rw [scan_singleton, Rule.scan, schemaText, hfound, sectionMatches, List.map_map]
  rfl

/-- **Schemas.** The models of a printed schema are read back, in order. -/
theorem schemaModels_printed {limits : Limits} (info : FileInfo) (h : PlainSchema models ending)
    (hceiling : ∀ m ∈ models, (m.inner.length : Int) + 1 ≤ limits.block) :
    schemaModels limits (View.ofFile info (schemaText models ending)) =
      (places ModelText.toSection [] models).map fun (before, m) =>
        m.record info.path (models.map (·.name)) before := by
  have hplace {place : List Char × ModelText}
      (hmem : place ∈ places ModelText.toSection [] models) :
      place.2 ∈ models ∧ ∃ rest, schemaText models ending =
        place.1 ++ (place.2.toSection.header ++ (place.2.toSection.body ++ rest)) :=
    exists_of_mem_places ending hmem
  -- The names of the models are known before any field is read, since they tell relations.
  have hnames : ((places ModelText.toSection [] models).map fun (before, m) =>
      (m.span (schemaText models ending) before).group "name") = models.map (·.name) := by
    rw [← congrArg (List.map ModelText.name) (map_snd_places ModelText.toSection models []),
      List.map_map]
    refine List.map_congr_left fun place hmem => ?_
    obtain ⟨-, rest, htext⟩ := hplace hmem
    exact ModelText.group_span htext
  have hscan : scan [modelRule] (View.ofFile info (schemaText models ending)).content = _ :=
    h.scan_models
  have hspans : (scan [modelRule] (View.ofFile info (schemaText models ending)).content).map
      (·.group "name") = models.map (·.name) := by
    rw [hscan, List.map_map]
    exact hnames
  rw [schemaModels]
  simp only [hspans]
  rw [hscan, List.map_map]
  refine List.map_congr_left fun place hmem => ?_
  obtain ⟨hm, rest, htext⟩ := hplace hmem
  exact (h.plain _ hm).buildModel_span (hceiling _ hm) info htext _

end CodeSurvey.Extract

namespace CodeSurvey.Survey

open Extract Pattern

/-- **Schema files.** Whatever models a schema file is printed from, these are the models of the
file: one record for each, in order, if no block is longer than scans look. -/
theorem Surveyor.models_schemaText (s : Surveyor) (x : Extractors) {file : SourceFile}
    {models : List ModelText} {ending : List Char} (h : PlainSchema models ending)
    (hceiling : ∀ m ∈ models, (m.inner.length : Int) + 1 ≤ x.limits.block)
    (hlanguage : (s.infoOf file).language = "prisma")
    (hcontent : file.content.toList = schemaText models ending) :
    (s.surveyOf x [] file).entities .models =
      (places ModelText.toSection [] models).map fun (before, m) =>
        m.record file.path (models.map (·.name)) before := by
  have happlies : x.appliesTo (s.contextOf x [] file).view .models = true :=
    Bool.or_eq_true_iff.mpr (.inl (beq_iff_eq.mpr hlanguage))
  have hkept : x.unkept? (s.contextOf x [] file).view .models = none := by
    rw [Extractors.unkept?]
    cases x.limits.code <;> rfl
  have hview : (s.contextOf x [] file).view =
      View.ofFile (s.infoOf file) (schemaText models ending) :=
    congrArg (View.ofFile (s.infoOf file)) hcontent
  rw [s.surveyOf_entities x file happlies hkept, hview, Extractors.found]
  exact (if_pos (beq_iff_eq.mpr hlanguage)).trans (schemaModels_printed (s.infoOf file) h hceiling)

/-- Two models that relate to each other. One of the fields is called like a keyword, and one line
names a table. -/
def blogModels : List ModelText :=
  let id : FieldText := ⟨"  ".toList, "id".toList, " ".toList, "Int".toList, false, false,
    " @id @default(autoincrement())".toList⟩
  let posts : FieldText := ⟨"  ".toList, "posts".toList, " ".toList, "Post".toList, true, false, []⟩
  let model : FieldText := ⟨"\t".toList, "model".toList, "  ".toList, "User".toList, false, true, []⟩
  let author : FieldText := ⟨"\t".toList, "author".toList, " ".toList, "User".toList, false, false,
    " @x ".toList⟩
  [⟨[], "User".toList, [id], some ⟨"  ".toList, "app users".toList⟩, [posts]⟩,
    ⟨"\n\n".toList, "Post".toList, [model, author], none, []⟩]

/-- The schema file that is printed from them. -/
def blogSchema : SourceFile :=
  { path := "prisma/schema.prisma"
    content := String.ofList (schemaText blogModels ['\n']) }

theorem plainSchema_blogModels : PlainSchema blogModels ['\n'] :=
  ⟨by decide +kernel, by decide +kernel, by decide⟩

/-- They are read back. -/
theorem Surveyor.models_schemaText_blog :
    ∃ s x, Surveyor.ofSettings [] none = .ok s ∧ s.extractors = .ok x ∧
      PlainSchema blogModels ['\n'] ∧
      (∀ m ∈ blogModels, (m.inner.length : Int) + 1 ≤ x.limits.block) ∧
      (s.infoOf blogSchema).language = "prisma" ∧
      (s.surveyOf x [] blogSchema).entities .models = [
        { name := "User", filePath := "prisma/schema.prisma", lineStart := 1
          fields := [{ name := "id", type := some "Int" }, { name := "posts", type := some "Post[]" }]
          relations := ["Post"], tableName := some "app users", origin := .schema },
        { name := "Post", filePath := "prisma/schema.prisma", lineStart := 7
          fields := [{ name := "model", type := some "User", isOptional := true },
            { name := "author", type := some "User" }]
          relations := ["User"], tableName := some "post", origin := .schema }] := by
  have hfacts : ((Surveyor.ofSettings [] none).map fun s => (s.extractors.map fun x =>
      decide (x.limits.block = 2000000) &&
        decide ((s.infoOf blogSchema).language = "prisma")).toOption).toOption =
      some (some true) := by
    decide +kernel
  obtain ⟨s, hs, hseen⟩ := exists_eq_ok_of_map hfacts
  obtain ⟨x, hx, hseen⟩ := exists_eq_ok_of_map hseen
  rw [Bool.and_eq_true, decide_eq_true_eq, decide_eq_true_eq] at hseen
  obtain ⟨hblock, hlanguage⟩ := hseen
  have hceiling : ∀ m ∈ blogModels, (m.inner.length : Int) + 1 ≤ x.limits.block := by
    rw [hblock]
    decide +kernel
  have hmodels := s.models_schemaText x plainSchema_blogModels hceiling hlanguage
    (String.toList_ofList)
  refine ⟨s, x, hs, hx, plainSchema_blogModels, hceiling, hlanguage, hmodels.trans ?_⟩
  decide +kernel

end CodeSurvey.Survey
