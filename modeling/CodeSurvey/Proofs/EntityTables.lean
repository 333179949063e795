import CodeSurvey.Proofs.LineFeeds
import CodeSurvey.Proofs.LineSpans
import CodeSurvey.Proofs.Places
import CodeSurvey.Proofs.PlainDeclaration
import CodeSurvey.Proofs.Sections
import CodeSurvey.Proofs.Squeezing

/-!
# Tables of entity classes

The table of an entity class is named by a decorator, which is sought in the six lines that end with
the header of the class. The first decorator in these lines counts, and that may be the one of an
earlier class.

- `EntityText`, `PlainEntities`: classes that are printed, each with a decorator in front.
- `search?_decorator`: the first decorator in some lines is found.
- `tableName_of_decorator`: the table of a class.
- `entities_printed`: the models of printed classes.
- `table_of_neighbour`: a class that is given the table of another one.
-/

namespace CodeSurvey.Extract

open Text Source Pattern

/-! ## Printed classes -/

/-- What stands in front of the name of a table. -/
def decoratorFront : List Char :=
  "@Entity('".toList

/-- The decorator that names a table. -/
def decorator (table : List Char) : List Char :=
  decoratorFront ++ (table ++ "')".toList)

/-- Characters of tables: no quotes, and none that ends a line. -/
def isTableChar (c : Char) : Bool :=
  c != '\'' && c != '"' && c != '\n' && c != '\r'

/-- The words in front of the name of a class. -/
def classFront : List Char :=
  "export class ".toList

/-- The parts of an entity class: the line feeds before it, its table, its name, and what stands
between its braces. -/
structure EntityText where
  gap : List Char
  table : List Char
  name : List Char
  body : List Char

namespace EntityText

/-- The class as a section of a file. -/
def toSection (e : EntityText) : Section where
  lead := e.gap ++ (decorator e.table ++ ['\n'])
  header := classFront ++ (e.name ++ " \x7b".toList)
  body := e.body ++ ['}']

/-- The name is an identifier, the table holds neither quotes nor the end of a line, and behind the
line with the opening brace all lines are indented. -/
structure Plain (e : EntityText) : Prop where
  gap : ∀ c ∈ e.gap, c = '\n'
  table : ∀ c ∈ e.table, isTableChar c = true
  name : isIdentifier e.name = true
  lines : ∀ line ∈ (splitAt '\n' e.body).tail, isIndented line = true

end EntityText

/-- Printed classes: between two of them a line ends, and behind the last one nothing but line feeds
stands. -/
structure PlainEntities (entities : List EntityText) (ending : List Char) : Prop where
  plain : ∀ e ∈ entities, e.Plain
  apart : ∀ e ∈ entities.tail, e.gap ≠ []
  ending : ∀ c ∈ ending, c = '\n'

/-- The text of printed classes. -/
def entitiesText (entities : List EntityText) (ending : List Char) : List Char :=
  sectionsText (entities.map EntityText.toSection) ending

/-! ## Decorators -/

/-- Whether a decorator of the kind opens in a line. -/
def opensTable (line : List Char) : Bool :=
  contains line "@Entity(".toList || contains line "@Table(".toList

variable {above : List (List Char)} {needle rest : List Char}

/-- Lines that are joined, cut in front of one of them. -/
theorem join_lines (above : List (List Char)) (line : List Char) (more : List (List Char)) :
    join ['\n'] (above ++ line :: more) =
      linesText above ++ (line ++ more.flatMap fun other => ['\n'] ++ other) := by
  induction above with
  | nil => exact join_eq_flatMap ['\n'] line more
  | cons first above ih =>
    rw [List.cons_append, join_cons (List.append_ne_nil_of_right_ne_nil _ (List.cons_ne_nil _ _)),
      ih, linesText_cons, List.append_assoc, List.singleton_append, List.cons_append]

/-- What is in none of the lines is not in their text. -/
theorem contains_linesText (hfeed : '\n' ∉ needle) (hneedle : needle ≠ [])
    (h : ∀ line ∈ above, contains line needle = false) :
    contains (linesText above) needle = false := by
  induction above with
  | nil =>
    obtain ⟨c, others, rfl⟩ := List.exists_cons_of_ne_nil hneedle
    rfl
  | cons line above ih =>
    obtain ⟨hline, habove⟩ := List.forall_mem_cons.mp h
    rw [linesText_cons, contains_feed hfeed, hline, ih habove]
    rfl

/-- Nor does it begin there and end behind the lines. -/
theorem not_isPrefix_of_linesText (hfeed : '\n' ∉ needle) (hneedle : needle ≠ [])
    (h : ∀ line ∈ above, contains line needle = false) {c : Char} {front back : List Char}
    (hparts : linesText above = front ++ c :: back) : ¬needle <+: c :: (back ++ rest) := by
  intro hprefix
  have hends : (linesText above).getLast? = some '\n' :=
    (endsLine_linesText above).resolve_left (by simp [hparts])
  rw [hparts, List.getLast?_append_of_ne_nil _ (List.cons_ne_nil c back)] at hends
  obtain ⟨inner, hinner⟩ := List.getLast?_eq_some_iff.mp hends
  rw [← List.cons_append, hinner, List.append_assoc, List.singleton_append,
    prefix_append_cons_iff hfeed] at hprefix
  have hinfix : needle <:+: linesText above := by
    rw [hparts, hinner]
    exact hprefix.isInfix.trans ((List.prefix_append inner _).isInfix.trans
      (List.suffix_append front _).isInfix)
  have hcontains := contains_iff_infix.mpr hinfix
  rw [contains_linesText hfeed hneedle h] at hcontains
  contradiction

/-! ## The first decorator -/

/-- A match begins with one of the two decorators. -/
theorem refuses_entityPattern {text : List Char} (hentity : ¬"@Entity(".toList <+: text)
    (htable : ¬"@Table(".toList <+: text) : entityPattern.Refuses text := by
  have hentityParts : "@Entity(".toList = "@".toList ++ ("Entity".toList ++ "(".toList) := by decide
  have htableParts : "@Table(".toList = "@".toList ++ ("Table".toList ++ "(".toList) := by decide
  have hstart : (lit "@" ++ words ["Entity", "Table"] ++ lit "(").Refuses text := by
    apply refuses_of_not_reads
    rintro before offset kept t ⟨u, ⟨w, hat, hword⟩, hopen⟩
    have hfirst : text = "@".toList ++ w.after := (passes_of_reads_lit hat).after
    have hlast := (passes_of_reads_lit hopen).after
    rcases hword with hword | hword
    · refine hentity ⟨t.after, ?_⟩
      rw [hfirst, (passes_of_reads_lit hword).after, hlast, hentityParts]
      simp only [List.append_assoc]
    · refine htable ⟨t.after, ?_⟩
      rw [hfirst, (passes_of_reads_lit hword).after, hlast, htableParts]
      simp only [List.append_assoc]
  exact ((((hstart.seq _).seq _).seq _).seq _).seq _

/-- What is read of a decorator. -/
def decoratorRead (table : List Char) : List Char :=
  decoratorFront ++ (table ++ ['\''])

/-- A decorator is read to the end of the name. -/
theorem prefers_decorator {table : List Char} (rest : List Char) (offset : Nat)
    (hinked : table ≠ []) (htable : ∀ c ∈ table, isTableChar c = true) :
    entityPattern.Prefers (decoratorRead table) rest offset
      [⟨"table", offset + 9, offset + 9 + table.length⟩] := by
  let back := table ++ (['\''] ++ rest)
  have hquote (rest : List Char) (place : Nat) :
      (oneOf "'\"").Prefers ['\''] rest place [] := (takes_one rest place (by decide)).prefers
  have hat : (lit "@").Prefers "@".toList ("Entity".toList ++ ("(".toList ++ (['\''] ++ back)))
      offset [] := (takes_lit "@" _ offset).prefers
  have hword (place : Nat) : (words ["Entity", "Table"]).Prefers "Entity".toList
      ("(".toList ++ (['\''] ++ back)) place [] :=
    (takes_lit "Entity" _ place).prefers.alts [lit "Table"]
  have hopen (place : Nat) : (lit "(").Prefers "(".toList (['\''] ++ back) place [] :=
    (takes_lit "(" _ place).prefers
  have hblank (place : Nat) : spaces.Takes [] (['\''] ++ back) place [] :=
    takes_many_nil place rfl
  have hoptions (place : Nat) : (opt (lit "\x7b" ++ spaces ++ words ["name", "tableName"] ++ spaces
      ++ lit ":" ++ spaces)).Takes [] (['\''] ++ back) place [] :=
    ((((((refuses_lit '\x7b' rfl (by simp)).seq _).seq _).seq _).seq _).seq _).opt place
  have hname (place : Nat) : (capture "table" (many1 (noneOf "'\""))).Prefers table
      (['\''] ++ rest) place [⟨"table", place, place + table.length⟩] := by
    refine (prefers_many1 place rfl (fun c hc => ?_) hinked).capture "table"
    have hchar := htable c hc
    simp only [isTableChar, Bool.and_eq_true, bne_iff_ne] at hchar
    simpa [CharSet.mem, CharSet.ofString, CharSet.unions] using
      (⟨Ne.symm hchar.1.1.1, Ne.symm hchar.1.1.2⟩ : '\'' ≠ c ∧ '"' ≠ c)
  -- The parts of the pattern are read one behind the other; blanks and options are not there.
  have hstart := (((hat.seq (hword _)).seq (hopen _)).seq_nothing (hblank _)).seq_nothing
    (hoptions _)
  have hread := ((hstart.seq (hquote back _)).seq (hname _)).seq (hquote rest _)
  have hfront : decoratorFront = "@".toList ++ "Entity".toList ++ "(".toList ++ ['\''] := by decide
  rw [decoratorRead, hfront, ← List.append_assoc]
  exact hread

/-- **The first decorator counts.** -/
theorem search?_decorator {table : List Char} (more : List (List Char)) (hinked : table ≠ [])
    (htable : ∀ c ∈ table, isTableChar c = true)
    (habove : ∀ line ∈ above, opensTable line = false) :
    (entityPattern.search? (join ['\n'] (above ++ decorator table :: more))).bind
      (·.group? "table") = some table := by
  let back := ')' :: more.flatMap fun other => ['\n'] ++ other
  have htext : join ['\n'] (above ++ decorator table :: more) =
      linesText above ++ (decoratorRead table ++ back) := by
    have hclose : "')".toList = ['\''] ++ [')'] := by decide
    rw [join_lines, decorator, decoratorRead, hclose]
    simp only [List.append_assoc]
    rfl
  -- From no place in the lines above a decorator can be read.
  have hrefused : ∀ c front rest, linesText above = front ++ c :: rest →
      entityPattern.Refuses (c :: (rest ++ (decoratorRead table ++ back))) := by
    intro c front rest hparts
    have hnone : ∀ line ∈ above, contains line "@Entity(".toList = false ∧
        contains line "@Table(".toList = false :=
      fun line hline => Bool.or_eq_false_iff.mp (habove line hline)
    refine refuses_entityPattern ?_ ?_
    · exact not_isPrefix_of_linesText (by decide) (by decide)
        (fun line hline => (hnone line hline).1) hparts
    · exact not_isPrefix_of_linesText (by decide) (by decide)
        (fun line hline => (hnone line hline).2) hparts
  have hheader : decoratorRead table ≠ [] := List.append_ne_nil_of_left_ne_nil (by decide) _
  have hmatch := (prefers_decorator back (linesText above).length hinked htable).matchHere?
    (linesText above ++ (decoratorRead table ++ back)) ((linesText above).reverse ++ [])
  have hname : between (linesText above ++ (decoratorRead table ++ back))
      ((linesText above).length + 9) ((linesText above).length + 9 + table.length) = table := by
    have hmiddle := between_append (linesText above ++ decoratorFront) table (['\''] ++ back)
    rw [List.length_append, List.append_assoc] at hmiddle
    rw [decoratorRead, List.append_assoc, List.append_assoc]
    exact hmiddle
  rw [htext, search?, searchFrom_refused _ [] 0 hrefused, Nat.zero_add,
    searchFrom_of_header hheader hmatch]
  exact congrArg some hname

/-! ## The lines above a class -/

theorem isTableChar_plain {table : List Char} (htable : ∀ c ∈ table, isTableChar c = true) :
    '\n' ∉ decorator table ∧ '\r' ∉ decorator table := by
  simp only [decorator, List.mem_append, not_or]
  exact ⟨⟨by decide, fun hmem => absurd (htable _ hmem) (by decide), by decide⟩,
    ⟨by decide, fun hmem => absurd (htable _ hmem) (by decide), by decide⟩⟩

/-- The table of a class is named by the first decorator in the six lines that end with its header.
`front` is the text before the decorator. -/
theorem tableName_of_decorator (info : FileInfo) (c : Class) {front table : List Char}
    (hfront : EndsLine front) (hinked : table ≠ []) (htable : ∀ c ∈ table, isTableChar c = true)
    (rest : List Char) :
    let content := front ++ (addLine [] (decorator table) ++ rest)
    count '\n' front < c.lineStart → c.lineStart ≤ count '\n' front + 6 →
    (∀ line ∈ between (lines content) (c.lineStart - decoratorLines) (count '\n' front),
      opensTable line = false) →
    (classModel (View.ofFile info content) c).tableName = some (String.ofList table) := by
  intro content hbehind hnear hnone
  obtain ⟨hfeed, hreturn⟩ := isTableChar_plain htable
  have hends : EndsLine (addLine [] (decorator table)) := .inr List.getLast?_concat
  have hlines : lines content = lines front ++ (decorator table :: lines rest) := by
    rw [lines_append hfront, lines_append hends, lines_add_line (.inl rfl) hfeed hreturn]
    rfl
  have hlength := length_lines hfront
  -- The six lines begin in the text in front of the decorator or with the decorator itself.
  have hdrop : (lines content).drop (c.lineStart - decoratorLines) =
      (lines front).drop (c.lineStart - decoratorLines) ++ (decorator table :: lines rest) := by
    rw [hlines, List.drop_append_of_le_length]
    simp only [decoratorLines]
    omega
  have habove : between (lines content) (c.lineStart - decoratorLines) (count '\n' front) =
      (lines front).drop (c.lineStart - decoratorLines) := by
    rw [between, hdrop, ← hlength, ← List.length_drop, List.take_left]
  -- The six lines hold the decorator, with lines above it and lines below.
  have hwindow : between (lines content) (c.lineStart - decoratorLines) c.lineStart =
      (lines front).drop (c.lineStart - decoratorLines) ++
        decorator table :: (lines rest).take (c.lineStart - count '\n' front - 1) := by
    obtain ⟨below, hbelow⟩ : ∃ below, c.lineStart = count '\n' front + below + 1 :=
      ⟨c.lineStart - count '\n' front - 1, by omega⟩
    have htake : c.lineStart - (c.lineStart - decoratorLines) =
        ((lines front).drop (c.lineStart - decoratorLines)).length + (below + 1) := by
      rw [List.length_drop]
      simp only [decoratorLines]
      omega
    have hrest : c.lineStart - count '\n' front - 1 = below := by omega
    rw [between, hdrop, htake, List.take_length_add_append, List.take_succ_cons, hrest]
  rw [habove] at hnone
  show ((entityPattern.search? (join ['\n'] (between (lines content)
    (c.lineStart - decoratorLines) c.lineStart))).bind (·.group? "table")).map String.ofList = _
  rw [hwindow, search?_decorator _ hinked htable hnone]
  rfl

/-! ## Headers -/

namespace EntityText

variable {e : EntityText}

/-- What is kept of a header. -/
def captures (e : EntityText) (start : Nat) : List Capture :=
  [⟨"name", start + 13, start + 13 + e.name.length⟩, ⟨"export", start, start + 7⟩]

/-- The header of a class is matched at the start of a line. -/
theorem matchHere?_header (hname : isIdentifier e.name = true) (subject : List Char)
    {before : List Char} (rest : List Char) (offset : Nat) (hline : startsLine before = true) :
    classRule.pattern.matchHere? subject ⟨before, e.toSection.header ++ rest, offset, []⟩ false =
      some ⟨subject, offset, offset + e.toSection.header.length, e.captures offset⟩ := by
  let brace := [' '] ++ ("\x7b".toList ++ rest)
  let back := "class".toList ++ ([' '] ++ (e.name ++ brace))
  -- Only the first word and the keyword are there; every optional part between them would begin
  -- with another letter.
  have hexport : (capture "export" (lit "export" ++ spaces1
      ++ opt (lit "default" ++ spaces1))).Prefers ("export".toList ++ [' ']) back offset
        [⟨"export", offset, offset + 7⟩] := by
    have hdefault : (lit "default" ++ spaces1).Refuses back :=
      (refuses_lit 'd' rfl (by simp [back])).seq _
    have hinked : back.head?.any isSpace = false := rfl
    have hword := (takes_lit "export" ([' '] ++ back) offset).prefers.seq
      (takes_spaces1 (offset + "export".toList.length) hinked).prefers
    exact (hword.seq_nothing (hdefault.opt _)).capture "export"
  have hdeclare (place : Nat) : (opt (lit "declare" ++ spaces1)).Takes [] back place [] :=
    ((refuses_lit 'd' rfl (by simp [back])).seq _).opt place
  have habstract (place : Nat) :
      (opt (capture "abstract" (lit "abstract" ++ spaces1))).Takes [] back place [] :=
    (((refuses_lit 'a' rfl (by simp [back])).seq _).capture "abstract").opt place
  have hident (place : Nat) : (capture "name" identifier).Prefers e.name brace place
      [⟨"name", place, place + e.name.length⟩] :=
    (prefers_identifier place hname rfl).capture "name"
  -- Type parameters and what a class is based on would begin with something else than the brace.
  have hnone {p : Pattern} {set : CharSet} (hp : p.beginsPast .space set = true)
      (hset : set.mem '\x7b' = false) (place : Nat) : (opt p).Takes [] brace place [] :=
    (refuses_of_beginsPast hp rfl hset).opt place
  have hgenerics (place : Nat) : shortGenerics.Takes [] brace place [] :=
    hnone (by decide +kernel : beginsPast .space (.char '<') _ = true) rfl place
  have hextends (place : Nat) : (opt (spaces1 ++ lit "extends" ++ spaces1
      ++ capture "extends" (many1 (one (.union .word (.ofString "$.")))) ++ shortGenerics)).Takes
        [] brace place [] :=
    hnone (by decide +kernel : beginsPast .space (.char 'e') _ = true) rfl place
  have himplements (place : Nat) : (opt (spaces1 ++ lit "implements" ++ spaces1
      ++ capture "implements" (few1 (noneOf "\x7b")))).Takes [] brace place [] :=
    hnone (by decide +kernel : beginsPast .space (.char 'i') _ = true) rfl place
  have hfront := ((hexport.opt.seq_nothing (hdeclare _)).seq_nothing (habstract _)).seq_word "class"
    (inked_identifier hname brace)
  have hnamed := ((hfront.seq (hident _)).seq_nothing (hgenerics _)).seq_nothing (hextends _)
  have hmatch := matchHere?_prefers subject hline (hnamed.seq_nothing (himplements _)).seq_brace
  have htext : e.toSection.header = "export".toList ++ [' '] ++ "class".toList ++ [' '] ++ e.name ++
      [' '] ++ "\x7b".toList := by
    have hwords : classFront = "export".toList ++ [' '] ++ "class".toList ++ [' '] := by decide
    have hend : " \x7b".toList = [' '] ++ "\x7b".toList := by decide
    rw [toSection, hwords, hend]
    simp only [List.append_assoc]
  rw [htext]
  exact hmatch

/-- The lines before the header hold none. -/
theorem Plain.quiet_lead (h : e.Plain) : Quiet true e.toSection.lead := by
  have hgap : Quiet true e.gap := quiet_of_noLetters fun c hc => by
    rw [h.gap c hc]
    decide
  have hline : Quiet false (decorator e.table ++ ['\n']) :=
    quiet_append (isTableChar_plain h.table).1 ⟨fun _ => rfl, trivial⟩
  have hfresh : Quiet true (decorator e.table ++ ['\n']) := ⟨fun _ => rfl, hline.2⟩
  exact Quiet.append hfresh hgap

/-- Nor do those behind it. -/
theorem Plain.quiet_body (h : e.Plain) : Quiet false e.toSection.body := by
  have hend : Quiet true ['}'] := ⟨fun _ => rfl, trivial⟩
  exact Quiet.append hend ((quiet_of_lines e.body).2 h.lines)

end EntityText

theorem classRule_anchored : classRule.pattern.Anchored :=
  have honly := (((((onlyAtLines_lineStart _).seq _).seq _).seq _).seq _).seq _
  OnlyAtLines.anchored (((((honly.seq _).seq _).seq _).seq _).seq _) (by decide +kernel)
    (by decide +kernel)

variable {entities : List EntityText} {ending : List Char}

theorem PlainEntities.sectioned (h : PlainEntities entities ending) :
    Sectioned classRule.pattern EntityText.toSection EntityText.captures entities ending := by
  have hlast (e : EntityText) : e.toSection.lead.getLast? = some '\n' := by
    rw [EntityText.toSection, ← List.append_assoc]
    exact List.getLast?_concat
  exact {
    lead := fun e he rest => passed_of_quiet classRule_anchored _ (h.plain e he).quiet_lead
    first := fun e _ => .inr (hlast e)
    others := fun e _ => hlast e
    header := fun e he subject before rest offset hline =>
      EntityText.matchHere?_header (h.plain e he).name subject rest offset hline
    inked := fun e _ => List.append_ne_nil_of_left_ne_nil (by decide) _
    line := fun e he => by
      simp only [EntityText.toSection, List.mem_append, not_or]
      exact ⟨by decide, notMem_identifier (h.plain e he).name, by decide⟩
    body := fun e he rest => passed_of_quiet classRule_anchored rest (h.plain e he).quiet_body
    ending := passed_of_quiet classRule_anchored [] (quiet_of_noLetters fun c hc => by
      rw [h.ending c hc]
      decide)
    refuses := classRule_anchored.noLetter [] rfl }

/-! ## Models -/

/-- Headers are found with their names and lines. -/
theorem PlainEntities.classes_eq (h : PlainEntities entities ending) (limits : Limits)
    (info : FileInfo) :
    (classes limits (View.ofFile info (entitiesText entities ending))).map
        (fun c => (c.name, c.lineStart)) =
      (places EntityText.toSection [] entities).map fun (before, e) =>
        (String.ofList e.name, 1 + count '\n' before) := by
  have hfound := findAll_sections classRule_anchored.onlyAtLines h.sectioned
  rw [classes, List.map_map]
  show (scan [classRule] (entitiesText entities ending)).map _ = _
  rw [scan_singleton, Rule.scan, entitiesText, hfound, sectionMatches, List.map_map, List.map_map]
  refine List.map_congr_left fun place hmem => ?_
  obtain ⟨-, rest, htext⟩ := exists_of_mem_places ending hmem
  rw [List.nil_append] at htext
  have hfirst : (View.ofFile info (entitiesText entities ending)).lineAt place.1.length =
      1 + count '\n' place.1 := by
    rw [lineAt_ofFile, entitiesText, htext, List.take_left]
  have hname : between (entitiesText entities ending) (place.1.length + 13)
      (place.1.length + 13 + place.2.name.length) = place.2.name := by
    have hmiddle := between_append (place.1 ++ classFront) place.2.name
      (" \x7b".toList ++ (place.2.toSection.body ++ rest))
    rw [List.length_append, List.append_assoc] at hmiddle
    have hheader : place.2.toSection.header = classFront ++ (place.2.name ++ " \x7b".toList) := rfl
    rw [entitiesText, htext, hheader]
    simp only [List.append_assoc]
    exact hmiddle
  exact Prod.ext (congrArg String.ofList hname) hfirst

/-- In front of a decorator a line has ended. -/
theorem PlainEntities.exists_front (h : PlainEntities entities ending)
    {place : List Char × EntityText} (hmem : place ∈ places EntityText.toSection [] entities) :
    ∃ front rest, EndsLine front ∧ place.1 = front ++ addLine [] (decorator place.2.table) ∧
      entitiesText entities ending =
        front ++ (addLine [] (decorator place.2.table) ++ rest) := by
  obtain ⟨start, hstart, hfirst⟩ := lead_of_mem_places hmem
  obtain ⟨hentity, rest, htext⟩ := exists_of_mem_places ending hmem
  rw [List.nil_append] at htext
  have hplace : place.1 = (start ++ place.2.gap) ++ addLine [] (decorator place.2.table) := by
    rw [hstart, EntityText.toSection, addLine, List.nil_append, List.append_assoc]
  refine ⟨start ++ place.2.gap, place.2.toSection.header ++ (place.2.toSection.body ++ rest), ?_,
    hplace, ?_⟩
  · by_cases hgap : place.2.gap = []
    · have hnil : start = [] := hfirst.resolve_right fun hmem => h.apart _ hmem hgap
      exact .inl (by rw [hnil, hgap]; rfl)
    · right
      rw [List.getLast?_append_of_ne_nil _ hgap, List.getLast?_eq_some_getLast hgap,
        (h.plain _ hentity).gap _ (List.getLast_mem hgap)]
  · rw [← List.append_assoc, ← hplace]
    exact htext

/-- **Tables of classes.** Each class of a printed sequence is a model, in order, with its name and
the line of its header. Of the decorators in the six lines that end with the header, its own among
them, the first one names the table: one above which none opens in these lines. -/
theorem entities_printed (limits : Limits) (info : FileInfo) (h : PlainEntities entities ending) :
    let v := View.ofFile info (entitiesText entities ending)
    let models := (classes limits v).map (classModel v)
    let found := places EntityText.toSection [] entities
    models.map (fun m => (m.name, m.lineStart)) =
        found.map (fun (before, e) => (String.ofList e.name, 1 + count '\n' before)) ∧
      ∀ m ∈ models, ∀ place ∈ found, place.2.table ≠ [] →
        count '\n' place.1 < m.lineStart → m.lineStart ≤ count '\n' place.1 + 5 →
        (∀ line ∈ between (lines v.content) (m.lineStart - decoratorLines)
          (count '\n' place.1 - 1), opensTable line = false) →
        m.tableName = some (String.ofList place.2.table) := by
  intro v models found
  constructor
  · rw [List.map_map]
    exact h.classes_eq limits info
  · intro m hm place hplace hinked hbehind hnear hnone
    obtain ⟨c, -, rfl⟩ := List.mem_map.mp hm
    obtain ⟨front, rest, hfront, hbefore, htext⟩ := h.exists_front hplace
    have htable := (h.plain _ (exists_of_mem_places [] hplace).1).table
    have hline : (classModel v c).lineStart = c.lineStart := rfl
    rw [hline] at hbehind hnear hnone
    have hcount : count '\n' place.1 = count '\n' front + 1 := by
      have hfeed := List.count_eq_zero.mpr (isTableChar_plain htable).1
      rw [hbefore, addLine, List.nil_append, count, List.count_append, List.count_append, hfeed]
      rfl
    have hcontent : v =
        View.ofFile info (front ++ (addLine [] (decorator place.2.table) ++ rest)) :=
      congrArg (View.ofFile info) htext
    rw [hcontent, hcount, Nat.add_sub_cancel] at hnone
    rw [hcontent]
    exact tableName_of_decorator info c hfront hinked htable rest (by omega) (by omega) hnone

/-- Two classes, the first of them with these lines between its braces. -/
def twoEntities (inner : List Char) : List EntityText :=
  [⟨[], "a".toList, "A".toList, '\n' :: inner⟩, ⟨['\n'], "b".toList, "B".toList, ['\n']⟩]

/-- The models of the two classes. -/
def twoModels (inner : List Char) : List Model :=
  let v := View.ofFile { (default : FileInfo) with path := "src/entities/a.ts" }
    (entitiesText (twoEntities inner) ['\n'])
  let limits : Limits := ⟨blockFallback, blockCeiling, signatureCeiling, definitionCeiling, 50,
    .ok []⟩
  (classes limits v).map (classModel v)

theorem plainEntities_two {inner : List Char}
    (hlines : ∀ line ∈ splitAt '\n' inner, isIndented line = true) :
    PlainEntities (twoEntities inner) ['\n'] where
  plain e he := by
    simp only [twoEntities, List.mem_cons, List.not_mem_nil, or_false] at he
    rcases he with rfl | rfl
    · have htail : (splitAt '\n' ('\n' :: inner)).tail = splitAt '\n' inner :=
        congrArg List.tail (splitAt_append_cons '\n' [] inner)
      exact ⟨by simp, by simp +decide, by simp +decide,
        fun line hline => hlines line (htail ▸ hline)⟩
    · exact ⟨by simp, by decide, by decide, by decide⟩
  apart := by simp [twoEntities]
  ending := by simp

/-- With enough lines between the decorators each class has its own table. -/
theorem entities_printed_apart :
    let inner := "  id: string\n  name: string\n  age: number\n".toList
    PlainEntities (twoEntities inner) ['\n'] ∧
      (twoModels inner).map (fun m => (m.name, m.lineStart)) = [("A", 2), ("B", 8)] ∧
      ∀ m ∈ twoModels inner,
        m.lineStart = 2 ∧ m.tableName = some "a" ∨ m.lineStart = 8 ∧ m.tableName = some "b" := by
  intro inner
  have hplain : PlainEntities (twoEntities inner) ['\n'] := plainEntities_two (by decide)
  obtain ⟨hnames, htables⟩ := entities_printed
    ⟨blockFallback, blockCeiling, signatureCeiling, definitionCeiling, 50, .ok []⟩
    { (default : FileInfo) with path := "src/entities/a.ts" } hplain
  have hlines : (twoModels inner).map (fun m => (m.name, m.lineStart)) = [("A", 2), ("B", 8)] :=
    hnames.trans (by decide +kernel)
  refine ⟨hplain, hlines, fun m hm => ?_⟩
  have hlisted : (m.name, m.lineStart) ∈ [("A", 2), ("B", 8)] := hlines ▸ List.mem_map_of_mem hm
  simp only [List.mem_cons, List.not_mem_nil, or_false, Prod.mk.injEq] at hlisted
  rcases hlisted with ⟨-, hline⟩ | ⟨-, hline⟩
  · left
    refine ⟨hline, htables m hm _ List.mem_cons_self (by decide) ?_ ?_ ?_⟩ <;> rw [hline]
      <;> decide +kernel
  · right
    refine ⟨hline, htables m hm _ (List.mem_cons_of_mem _ List.mem_cons_self) (by decide) ?_ ?_ ?_⟩
      <;> rw [hline] <;> decide +kernel

/-- **A neighbour's table.** Without lines between them the second class is given the table of the
first. -/
theorem table_of_neighbour :
    PlainEntities (twoEntities []) ['\n'] ∧
      (twoEntities []).map (fun e => (String.ofList e.name, String.ofList e.table)) =
        [("A", "a"), ("B", "b")] ∧
      (twoModels []).map (fun m => (m.name, m.tableName)) = [("A", some "a"), ("B", some "a")] := by
  refine ⟨plainEntities_two (by decide), by decide, ?_⟩
  simp only [twoModels, classes, scan_singleton]
  decide +kernel

end CodeSurvey.Extract
