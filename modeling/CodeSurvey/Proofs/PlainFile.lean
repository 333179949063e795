import CodeSurvey.Proofs.LineNumbers
import CodeSurvey.Proofs.PlainDeclaration
import CodeSurvey.Proofs.Sections
import Mathlib.Data.List.Basic

/-!
# Files of plain declarations

From a file that holds plain declarations with line breaks between them, one function is extracted
for each declaration, in order, and nothing else.

- `Placed`, `source`, `positions`: declarations with the line breaks before them, the text of a
  file, and the text before each declaration.
- `Declaration.record`: the function that a declaration stands for.
- `Placed.toSection`, `positions_eq`: such a file is a text in sections.
- `scan_source`: the rules find the headers and nothing else.
- `functions_source`: the functions of the file.
-/

namespace CodeSurvey.Extract

open Text Source Pattern

/-! ## Files -/

/-- A declaration and the line breaks before it. -/
structure Placed where
  gap : List Char
  declaration : Declaration

/-- The line breaks and the declaration. -/
def Placed.text (p : Placed) : List Char :=
  p.gap ++ p.declaration.text

/-- The text of a file that ends in line breaks. -/
def source (placed : List Placed) (ending : List Char) : List Char :=
  placed.flatMap Placed.text ++ ending

/-- The declarations, each with the text before it in the file. -/
def positions : (before : List Char) → List Placed → List (List Char × Declaration)
  | _, [] => []
  | before, p :: rest => (before ++ p.gap, p.declaration) :: positions (before ++ p.text) rest

/-- Characters that break lines. -/
def isBreak (c : Char) : Bool :=
  c == '\n' || c == '\r'

/-- Every declaration begins a line, and nothing but line breaks stands around them. -/
structure Separated (placed : List Placed) (ending : List Char) : Prop where
  breaks : ∀ p ∈ placed, p.gap.all isBreak = true
  first : ∀ p ∈ placed.head?, p.gap = [] ∨ p.gap.getLast? = some '\n'
  others : ∀ p ∈ placed.tail, p.gap.getLast? = some '\n'
  ending : ending.all isBreak = true

/-- The function that a declaration stands for, where a text stands before it in the file. Its lines
are those of its first character and of its closing brace. -/
def Declaration.record (limits : Limits) (path : String) (before : List Char) (d : Declaration) :
    Function where
  name := String.ofList d.name
  filePath := path
  lineStart := 1 + count '\n' before
  lineEnd := 1 + count '\n' (before ++ d.text)
  code := String.ofList (limits.keep "function" d.text)
  parameters := parameters d.params
  returnType := d.type?.map fun type => String.ofList (squeeze type)
  isAsync := d.isAsync
  isExported := d.exported
  complexity := Metrics.complexity d.text
  callsTo := calls d.remainder

/-! ## Sections -/

/-- A declaration as a section: the line breaks before it, its header and the rest. -/
def Placed.toSection (p : Placed) : Section where
  lead := p.gap
  header := p.declaration.header
  body := p.declaration.params ++ (')' :: p.declaration.remainder)

/-- The text of a file is that of its sections. -/
theorem source_eq (placed : List Placed) (ending : List Char) :
    source placed ending = sectionsText (placed.map Placed.toSection) ending := by
  rw [source, sectionsText, List.flatMap_map]
  rfl

/-- The declarations stand where the headers of the sections do. -/
theorem positions_eq (placed : List Placed) : ∀ before : List Char,
    positions before placed =
      (places Placed.toSection before placed).map fun (before, p) => (before, p.declaration) := by
  induction placed with
  | nil => exact fun _ => rfl
  | cons p placed ih => exact fun before => congrArg ((before ++ p.gap, p.declaration) :: ·) (ih _)

/-- Each declaration is found in the file behind the text before it. -/
theorem exists_of_mem_positions {placed : List Placed} (ending : List Char) {before : List Char}
    {position : List Char × Declaration} (hmem : position ∈ positions before placed) :
    position.2 ∈ placed.map (·.declaration) ∧
      ∃ rest, before ++ source placed ending = position.1 ++ (position.2.text ++ rest) := by
  rw [positions_eq] at hmem
  obtain ⟨place, hplace, rfl⟩ := List.mem_map.mp hmem
  obtain ⟨hp, rest, hrest⟩ := exists_of_mem_places ending hplace
  refine ⟨List.mem_map_of_mem hp, rest, ?_⟩
  rw [source_eq, hrest, Declaration.text, List.append_assoc]
  rfl

/-! ## Scanning -/

/-- Line breaks are no letters. -/
theorem quiet_of_breaks {text : List Char} (h : text.all isBreak = true) : Quiet true text := by
  apply quiet_of_noLetters
  intro c hc
  have hbreak := List.all_eq_true.mp h c hc
  simp only [isBreak, Bool.or_eq_true, beq_iff_eq] at hbreak
  rcases hbreak with rfl | rfl <;> decide

/-- The pattern for declarations matches their headers, and no line that starts elsewhere starts with
a letter. -/
theorem Separated.sectioned {placed : List Placed} {ending : List Char}
    (h : Separated placed ending) (hplain : ∀ p ∈ placed, p.declaration.Plain) :
    Sectioned declarationHeader Placed.toSection (fun p => p.declaration.captures) placed
      ending where
  lead p hp _ := passed_of_quiet declarationHeader_anchored _ (quiet_of_breaks (h.breaks p hp))
  first := h.first
  others := h.others
  header p hp subject _ rest offset hline :=
    matchHere?_declaration (hplain p hp).name subject rest offset hline
  inked p _ := by simp [Placed.toSection, Declaration.header]
  line p hp := (hplain p hp).notMem_header
  body p hp rest := passed_of_quiet declarationHeader_anchored rest (hplain p hp).quiet_signature
  ending := passed_of_quiet declarationHeader_anchored [] (quiet_of_breaks h.ending)
  refuses := declarationHeader_anchored.noLetter [] rfl

/-- The matches of headers at these positions. -/
def headerMatches (subject : List Char) (found : List (List Char × Declaration)) : List Match :=
  found.map fun (before, d) =>
    ⟨subject, before.length, before.length + d.header.length, d.captures before.length⟩

/-- **Declarations are found.** The pattern for declarations matches at each of them and nowhere
else. -/
theorem findAll_source {placed : List Placed} {ending : List Char} (h : Separated placed ending)
    (hplain : ∀ p ∈ placed, p.declaration.Plain) :
    declarationHeader.findAll (source placed ending) =
      headerMatches (source placed ending) (positions [] placed) := by
  rw [positions_eq, source_eq, headerMatches, List.map_map]
  exact findAll_sections declarationHeader_anchored.onlyAtLines (h.sectioned hplain)

/-- A pattern that needs a letter at the start of a line and matches at no declaration is refused
wherever a line starts in a file. The induction is over the declarations. -/
theorem passed_source {q : Pattern} (hq : q.Anchored)
    (hrefuses : ∀ (d : Declaration) rest, q.Refuses (d.text ++ rest)) {placed : List Placed}
    {ending : List Char} (hbreaks : ∀ p ∈ placed, p.gap.all isBreak = true)
    (hplain : ∀ p ∈ placed, p.declaration.Plain) (hending : ending.all isBreak = true) :
    Passed q [] true (source placed ending) := by
  induction placed with
  | nil => exact passed_of_quiet hq [] (quiet_of_breaks hending)
  | cons p placed ih =>
    obtain ⟨hgap, hgaps⟩ := List.forall_mem_cons.mp hbreaks
    obtain ⟨hp, hothers⟩ := List.forall_mem_cons.mp hplain
    have hdeclaration : Passed q (source placed ending ++ []) true p.declaration.text :=
      (passed_of_quiet hq _ hp.quiet).fresh (hrefuses p.declaration _)
    have hsource : source (p :: placed) ending =
        p.gap ++ (p.declaration.text ++ source placed ending) := by
      simp [source, Placed.text]
    rw [hsource]
    exact (passed_of_quiet hq _ (quiet_of_breaks hgap)).append_fresh
      (hdeclaration.append_fresh (ih hgaps hothers))

/-- No form of a bound function is found. -/
theorem findAll_binding {placed : List Placed} {ending : List Char} (h : Separated placed ending)
    (hplain : ∀ p ∈ placed, p.declaration.Plain) (q : Pattern) :
    (bindingStart ++ q).findAll (source placed ending) = [] := by
  have hanchored := bindingStart_anchored.seq q
  have hpassed : Passed (bindingStart ++ q) [] true (source placed ending) :=
    passed_source hanchored (fun d rest => (bindingStart_refuses d rest).seq q) h.breaks hplain
      h.ending
  exact findAll_passed_eq_nil hanchored.onlyAtLines (hanchored.noLetter [] rfl) hpassed

/-! ## Selection -/

/-- The spans of the headers at these positions. -/
def headerSpans (subject : List Char) (found : List (List Char × Declaration)) :
    List (Span CallableForm) :=
  (headerMatches subject found).map fun m => ⟨.declaration, m⟩

/-- The rules find the headers and nothing else. -/
theorem scan_source {placed : List Placed} {ending : List Char} (h : Separated placed ending)
    (hplain : ∀ p ∈ placed, p.declaration.Plain) :
    scan functionRules (source placed ending) =
      headerSpans (source placed ending) (positions [] placed) := by
  rw [functionRules, scan_cons_of_nothing, Rule.scan, findAll_source h hplain, headerSpans]
  -- The other rules are for bound functions.
  simp only [List.forall_mem_cons, List.not_mem_nil, false_implies, implies_true, and_true,
    arrowHeader, bareArrowHeader, expressionHeader]
  exact ⟨findAll_binding h hplain _, findAll_binding h hplain _, findAll_binding h hplain _⟩

/-! ## Functions -/

/-- The name is found again under its key. -/
theorem group?_captures {d : Declaration} {subject before rest : List Char} (stop : Nat)
    (hsubject : subject = before ++ (d.text ++ rest)) :
    (Match.mk subject before.length stop (d.captures before.length)).group? "name" =
      some d.name := by
  have hname : (Match.mk subject before.length stop (d.captures before.length)).span? "name" =
      (d.captures before.length).head? := by
    simp [Match.span?, Declaration.captures]
  have hsplit : subject = (before ++ (Declaration.word d.exported "export" ++
      Declaration.word d.isAsync "async" ++ "function".toList ++ [' '])) ++
        (d.name ++ (['('] ++ (d.params ++ (')' :: d.remainder)) ++ rest)) := by
    rw [hsubject]
    simp only [Declaration.text, Declaration.header, List.append_assoc, List.cons_append,
      List.nil_append]
  have hlength : (before ++ (Declaration.word d.exported "export" ++
      Declaration.word d.isAsync "async" ++ "function".toList ++ [' '])).length =
        before.length + (Declaration.word d.exported "export").length +
          (Declaration.word d.isAsync "async").length + "function".toList.length + 1 := by
    simp only [List.length_append, List.length_cons, List.length_nil]
    omega
  have hbetween := between_append (before ++ (Declaration.word d.exported "export" ++
    Declaration.word d.isAsync "async" ++ "function".toList ++ [' '])) d.name
    (['('] ++ (d.params ++ (')' :: d.remainder)) ++ rest)
  rw [← hsplit, hlength] at hbetween
  rw [Match.group?, hname]
  exact congrArg some hbetween

/-- Whether there are words for exports and asynchrony is found again under their keys. -/
theorem has_captures (d : Declaration) (subject : List Char) (start stop : Nat) :
    (Match.mk subject start stop (d.captures start)).has "export" = d.exported ∧
      (Match.mk subject start stop (d.captures start)).has "async" = d.isAsync := by
  cases hexported : d.exported <;> cases hasync : d.isAsync <;>
    simp [Match.has, Match.span?, Declaration.captures, Declaration.kept, hexported, hasync]

/-- A declaration ends in no blank. -/
theorem trimEnd_text (d : Declaration) : trimEnd d.text = d.text := by
  have hbrace : isSpace '}' = false := by decide
  simp [trimEnd, dropEndWhile, Declaration.text, Declaration.remainder, hbrace]

/-- A function that spans a declaration, with its parameters and the rest read off it, is its
record. -/
theorem buildFunction_declaration {limits : Limits} (info : FileInfo) {d : Declaration}
    {subject before rest : List Char} {c : Callable}
    (hsubject : subject = before ++ (d.text ++ rest)) (hparams : c.params = d.params)
    (hstop : c.stop = before.length + d.text.length)
    (hremainder : c.paramsStop + d.remainder.length = c.stop)
    (htype : c.returnType = d.type?.map squeeze) :
    buildFunction limits (View.ofFile info subject) d.name before.length c d.exported d.isAsync =
      d.record limits info.path before := by
  have htext : between subject before.length c.stop = d.text := by
    rw [hsubject, hstop]
    exact between_append before d.text rest
  have hbehind : between subject c.paramsStop c.stop = d.remainder := by
    have hsplit : subject =
        (before ++ (d.header ++ (d.params ++ [')']))) ++ (d.remainder ++ rest) := by
      rw [hsubject, Declaration.text]
      simp
    have hlength : c.paramsStop = (before ++ (d.header ++ (d.params ++ [')']))).length := by
      simp only [Declaration.text, List.length_append, List.length_cons, List.length_nil] at hstop ⊢
      omega
    rw [← hremainder, hlength, hsplit]
    exact between_append _ d.remainder rest
  have hfirst : (LineTable.ofText subject).lineAt before.length = 1 + count '\n' before := by
    rw [lineAt_ofText, hsubject, List.take_left]
  have hlast : 1 + count '\n' before + count '\n' d.text = 1 + count '\n' (before ++ d.text) := by
    rw [count, count, count, List.count_append, Nat.add_assoc]
  have hpiece : (View.ofFile info subject).pieceBetween before.length c.stop =
      ⟨1 + count '\n' before, 1 + count '\n' (before ++ d.text), d.text⟩ := by
    rw [View.pieceBetween, View.piece, View.ofFile, View.lineAt]
    simp only [htext, trimEnd_text, hfirst, hlast]
  rw [buildFunction, Declaration.record]
  have hcontent : (View.ofFile info subject).content = subject := rfl
  simp only [hpiece, hparams, htype, Option.map_map, hcontent, hbehind]
  rfl

/-- **Functions.** What is extracted at a plain declaration is its record. -/
theorem function_of_declaration {limits : Limits} (info : FileInfo) {d : Declaration}
    {subject before rest : List Char} (h : d.Plain) (hfits : d.Fits limits)
    (hsubject : subject = before ++ (d.text ++ rest)) (captures : List Capture) :
    ((callableOf limits subject ⟨.declaration, ⟨subject, before.length,
        before.length + d.header.length, captures⟩⟩).map fun c =>
      buildFunction limits (View.ofFile info subject) d.name before.length c d.exported d.isAsync) =
      some (d.record limits info.path before) := by
  -- The last character of the header is the parenthesis from which the rest is read.
  obtain ⟨header, hheader⟩ : ∃ header, d.header = header ++ ['('] :=
    ⟨Declaration.word d.exported "export" ++ (Declaration.word d.isAsync "async" ++
      ("function".toList ++ (' ' :: d.name))), by simp [Declaration.header]⟩
  have hsplit : subject = (before ++ header) ++
      ('(' :: (d.params ++ (')' :: d.remainder)) ++ rest) := by
    rw [hsubject, Declaration.text, hheader]
    simp
  have hparen : before.length + d.header.length - 1 = (before ++ header).length := by
    rw [hheader]
    simp only [List.length_append, List.length_cons, List.length_nil]
    omega
  obtain ⟨bodyStart, hread⟩ := readCallable_declaration h hfits (before ++ header) rest
  rw [← hsplit, ← hparen] at hread
  have hcallable : callableOf limits subject ⟨.declaration, ⟨subject, before.length,
      before.length + d.header.length, captures⟩⟩ = _ := hread
  rw [hcallable, Option.map_some]
  refine congrArg some (buildFunction_declaration info hsubject rfl ?_ rfl rfl)
  simp only [Declaration.text, hheader, List.length_append, List.length_cons, List.length_nil]
  omega

/-- **Plain files.** From a file of plain declarations that are set apart by line breaks, one
function is extracted for each declaration, in order, and it is the one that the declaration
stands for. -/
theorem functions_source {limits : Limits} (info : FileInfo) {placed : List Placed}
    {ending : List Char} (hplain : ∀ p ∈ placed, p.declaration.Plain)
    (hfits : ∀ p ∈ placed, p.declaration.Fits limits) (hseparated : Separated placed ending) :
    functions limits (View.ofFile info (source placed ending)) =
      (positions [] placed).map fun (before, d) => d.record limits info.path before := by
  have hscan : scan functionRules (View.ofFile info (source placed ending)).content =
      headerSpans (source placed ending) (positions [] placed) :=
    scan_source hseparated hplain
  rw [functions, hscan, headerSpans, headerMatches, List.map_map, List.filterMap_map]
  refine List.filterMap_eq_map_iff_forall_eq_some.mpr fun position hmem => ?_
  obtain ⟨hdeclared, rest, hsubject⟩ := exists_of_mem_positions ending hmem
  obtain ⟨p, hp, hpd⟩ := List.mem_map.mp hdeclared
  have hposition : position.2.Plain := hpd ▸ hplain p hp
  have hposition' : position.2.Fits limits := hpd ▸ hfits p hp
  rw [List.nil_append] at hsubject
  obtain ⟨hexported, hasync⟩ := has_captures position.2 (source placed ending) position.1.length
    (position.1.length + position.2.header.length)
  have hname := group?_captures (position.1.length + position.2.header.length) hsubject
  have hfunction := function_of_declaration info hposition hposition' hsubject
    (position.2.captures position.1.length)
  simp only [Function.comp, Span.group, Span.group?, Span.has, Span.start, hexported, hasync, hname,
    Option.getD_some]
  exact hfunction

/-- An exported and asynchronous declaration over three lines, and a bare one behind an empty
line. -/
def twoDeclarations : List Placed := [
  ⟨[], {
    exported := true
    isAsync := true
    name := "load".toList
    params := "path: string, n = (1)".toList
    type? := some "Promise<number>  |  null".toList
    body := "\n  if (path) \x7b return f(path); \x7d\n".toList }⟩,
  ⟨"\n\n".toList, {
    exported := false
    isAsync := false
    name := "g".toList
    params := []
    type? := none
    body := [] }⟩]

/-- The two declarations in a file. -/
theorem functions_source_two :
    (functions ⟨blockFallback, blockCeiling, signatureCeiling, definitionCeiling, 50, .ok []⟩
        (View.ofFile default (source twoDeclarations ['\n']))).map (fun f =>
      (f.name, f.lineStart, f.lineEnd, f.isExported, f.isAsync, f.returnType)) =
      [("load", 1, 3, true, true, some "Promise<number> | null"),
        ("g", 5, 5, false, false, none)] := by
  have hplain : ∀ p ∈ twoDeclarations, p.declaration.Plain := by
    intro p hp
    simp only [twoDeclarations, List.mem_cons, List.not_mem_nil, or_false] at hp
    rcases hp with rfl | rfl
    · refine ⟨by decide, by decide, by decide, by decide, ?_, by decide, by decide⟩
      rintro type ⟨⟩
      exact ⟨by decide, by decide, by decide, by decide⟩
    · refine ⟨by decide, by decide, by decide, by decide, ?_, by decide, by decide⟩
      rintro type ⟨⟩
  have hfits : ∀ p ∈ twoDeclarations, p.declaration.Fits
      ⟨blockFallback, blockCeiling, signatureCeiling, definitionCeiling, 50, .ok []⟩ := by
    intro p hp
    simp only [twoDeclarations, List.mem_cons, List.not_mem_nil, or_false] at hp
    rcases hp with rfl | rfl
    · refine ⟨by decide, ?_, by decide⟩
      rintro type ⟨⟩
      decide
    · refine ⟨by decide, ?_, by decide⟩
      rintro type ⟨⟩
  have hseparated : Separated twoDeclarations ['\n'] :=
    ⟨by decide, by decide, by decide, by decide⟩
  rw [functions_source default hplain hfits hseparated]
  rfl

end CodeSurvey.Extract
