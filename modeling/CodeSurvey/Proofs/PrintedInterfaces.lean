import CodeSurvey.Extract.Types
import CodeSurvey.Proofs.LineFeeds
import CodeSurvey.Proofs.LineSpans
import CodeSurvey.Proofs.MemberLists
import CodeSurvey.Proofs.Places
import CodeSurvey.Proofs.PlainDeclaration
import CodeSurvey.Proofs.Spans

/-!
# Printed interfaces

An interface is printed with each of its members on a line of its own, behind blanks as they come
and with a separator in front of the line feed or without one. At the start of a file such an
interface is the first one that is found, with the members that it was printed from.

- `MemberLine`, `InterfaceText`: what is printed.
- `members_inner`: the members come back from the lines between the braces.
- `matchHere?_interface`: the header is matched.
- `interfaces_printed`: the record of a printed interface.
-/

namespace CodeSurvey.Extract

open Text Source Pattern

/-! ## Lines of members -/

/-- A member on its line: blanks in front of it, and perhaps a separator behind it. -/
structure MemberLine where
  indent : List Char
  member : MemberText
  mark? : Option Char

namespace MemberLine

/-- The line as it is printed. -/
def text (l : MemberLine) : List Char :=
  l.indent ++ (l.member.text ++ l.mark?.toList)

/-- Blanks and tabs, a plain member in whose type braces are balanced, and a separator. -/
structure Plain (l : MemberLine) : Prop where
  indent : ∀ c ∈ l.indent, c = ' ' ∨ c = '\t'
  member : l.member.Plain
  braces : Balanced (· == '{') (· == '}') l.member.type
  mark : ∀ c ∈ l.mark?, c = ';' ∨ c = ','

instance (l : MemberLine) : Decidable l.Plain :=
  decidable_of_iff ((∀ c ∈ l.indent, c = ' ' ∨ c = '\t') ∧ l.member.Plain ∧
      Balanced (· == '{') (· == '}') l.member.type ∧ ∀ c ∈ l.mark?, c = ';' ∨ c = ',')
    ⟨fun h => ⟨h.1, h.2.1, h.2.2.1, h.2.2.2⟩, fun h => ⟨h.indent, h.member, h.braces, h.mark⟩⟩

variable {l : MemberLine}

/-- Blanks in front of a member part nothing. -/
theorem Plain.indent_blank (h : l.Plain) :
    ∀ c ∈ l.indent, isSpace c = true ∧ c ∉ memberSeparators := by
  intro c hc
  rcases h.indent c hc with rfl | rfl <;> decide

theorem Plain.mark_separator (h : l.Plain) : ∀ c ∈ l.mark?, c ∈ memberSeparators := by
  intro c hc
  rcases h.mark c hc with rfl | rfl <;> decide

/-- Nothing in the line ends it. -/
theorem Plain.notMem_text (h : l.Plain) : '\n' ∉ l.text := by
  have hindent : '\n' ∉ l.indent := fun hmem => by
    rcases h.indent _ hmem with heq | heq <;> exact absurd heq (by decide)
  have hmember : '\n' ∉ l.member.text := by
    rw [← h.member.item_text.squeezed]
    exact fun hmem => absurd (eq_blank_of_mem_squeeze hmem (by decide)) (by decide)
  have hmark : '\n' ∉ l.mark?.toList := fun hmem => by
    rcases h.mark _ (Option.mem_toList.mp hmem) with heq | heq <;> exact absurd heq (by decide)
  simp only [text, List.mem_append, not_or]
  exact ⟨hindent, hmember, hmark⟩

/-- No braces stand in front of the type. -/
theorem Plain.balanced_text (h : l.Plain) : Balanced (· == '{') (· == '}') l.text := by
  obtain ⟨-, hname⟩ := isName_iff.mp (isName_of_isIdentifier h.member.name)
  let label := l.indent ++ l.member.front ++ l.member.name ++ l.member.mark ++ ":".toList ++ [' ']
  have hlabel : Balanced (· == '{') (· == '}') label := by
    refine balanced_of_none fun c hc => ?_
    simp only [label, List.mem_append, or_assoc] at hc
    -- The label is put together from six parts, none of which holds a brace.
    have hother : c ≠ '{' ∧ c ≠ '}' := by
      rcases hc with hc | hc | hc | hc | hc | hc
      · rcases h.indent c hc with rfl | rfl <;> decide
      · have hfront : ∀ c ∈ l.member.front, c ≠ '{' ∧ c ≠ '}' := by
          rw [MemberText.front]
          cases l.member.constant <;> decide
        exact hfront c hc
      · have hplain := (hname c hc).1
        constructor <;> rintro rfl <;> exact absurd hplain (by decide)
      · have hmark : ∀ c ∈ l.member.mark, c ≠ '{' ∧ c ≠ '}' := by
          rw [MemberText.mark]
          cases l.member.marked <;> decide
        exact hmark c hc
      · exact (by decide : ∀ c ∈ ":".toList, c ≠ '{' ∧ c ≠ '}') c hc
      · exact (by decide : ∀ c ∈ [' '], c ≠ '{' ∧ c ≠ '}') c hc
    simpa using hother
  have hmark : Balanced (· == '{') (· == '}') l.mark?.toList := by
    refine balanced_of_none fun c hc => ?_
    rcases h.mark c (Option.mem_toList.mp hc) with rfl | rfl <;> decide
  have htext : l.text = label ++ (l.member.type ++ l.mark?.toList) := by
    simp [label, text, MemberText.text]
  rw [htext]
  exact hlabel.append (h.braces.append hmark)

/-- The line with the line feed before it, taken apart at separators. -/
def chunks (l : MemberLine) : List (Char × List Char) :=
  ('\n', l.indent ++ l.member.text) :: l.mark?.toList.map fun mark => (mark, [])

end MemberLine

variable {ls : List MemberLine}

/-- What stands between the braces, taken apart at separators. -/
def innerChunks (ls : List MemberLine) : List (Char × List Char) :=
  ls.flatMap MemberLine.chunks ++ [('\n', [])]

theorem inner_eq_flatMap (ls : List MemberLine) :
    '\n' :: linesText (ls.map MemberLine.text) =
      (innerChunks ls).flatMap fun chunk => chunk.1 :: chunk.2 := by
  induction ls with
  | nil => rfl
  | cons l ls ih =>
    have hline : (l.chunks.flatMap fun chunk => chunk.1 :: chunk.2) = '\n' :: l.text := by
      rw [MemberLine.chunks, MemberLine.text]
      cases l.mark? <;> simp
    have hrest : innerChunks (l :: ls) = l.chunks ++ innerChunks ls := by
      rw [innerChunks, List.flatMap_cons, List.append_assoc]
      rfl
    rw [hrest, List.flatMap_append, hline, ← ih, List.map_cons, linesText_cons]
    rfl

/-- Each chunk stands behind a separator and is read as one piece. -/
theorem whole_innerChunks (hplain : ∀ l ∈ ls, l.Plain) :
    ∀ chunk ∈ innerChunks ls, chunk.1 ∈ memberSeparators ∧ Whole memberSeparators chunk.2 := by
  have hnil : Whole memberSeparators [] := ⟨none, rfl⟩
  intro chunk hchunk
  rcases List.mem_append.mp hchunk with hchunk | hchunk
  · obtain ⟨l, hl, hchunk⟩ := List.mem_flatMap.mp hchunk
    rcases List.mem_cons.mp hchunk with rfl | hchunk
    · exact ⟨(by decide : '\n' ∈ memberSeparators),
        (hplain l hl).member.item_text.whole_indented (hplain l hl).indent_blank⟩
    · obtain ⟨mark, hmark, rfl⟩ := List.mem_map.mp hchunk
      exact ⟨(hplain l hl).mark_separator mark (Option.mem_toList.mp hmark), hnil⟩
  · rw [List.mem_singleton.mp hchunk]
    exact ⟨by decide, hnil⟩

/-- Of the chunks only members are kept. -/
theorem kept_innerChunks (hplain : ∀ l ∈ ls, l.Plain) :
    ((innerChunks ls).map fun chunk => trim chunk.2).filter (!·.isEmpty) =
      ls.map (·.member.text) := by
  induction ls with
  | nil => rfl
  | cons l ls ih =>
    obtain ⟨hl, hls⟩ := List.forall_mem_cons.mp hplain
    have hmember := hl.member.item_text
    have htrim : trim (l.indent ++ l.member.text) = l.member.text :=
      hmember.trim_indented fun c hc => (hl.indent_blank c hc).1
    have hkept : (!l.member.text.isEmpty) = true := by
      rw [Bool.not_eq_true', List.isEmpty_eq_false_iff]
      exact hmember.inked
    -- What stands behind the mark of a line is empty, and not kept.
    have hline : (l.chunks.map fun chunk => trim chunk.2).filter (!·.isEmpty) =
        [l.member.text] := by
      have hnil : trim [] = [] := rfl
      rw [MemberLine.chunks]
      cases l.mark? <;> simp [htrim, hkept, hnil]
    have hrest : innerChunks (l :: ls) = l.chunks ++ innerChunks ls := by
      rw [innerChunks, List.flatMap_cons, List.append_assoc]
      rfl
    rw [hrest, List.map_append, List.filter_append, hline, ih hls]
    rfl

/-- **Members.** The members of printed lines are read back, as far as the limit allows. -/
theorem members_inner (hplain : ∀ l ∈ ls, l.Plain) (limit : Int) :
    members ('\n' :: linesText (ls.map MemberLine.text)) limit =
      limited limit (ls.map (·.member.property)) := by
  have hnil : Whole memberSeparators [] := ⟨none, rfl⟩
  have hpieces := pieces_list (List.all_eq_true.mp rfl) hnil (whole_innerChunks hplain)
  rw [List.nil_append, ← inner_eq_flatMap] at hpieces
  have hsplit : splitTopLevel ('\n' :: linesText (ls.map MemberLine.text)) memberSeparators =
      ls.map (·.member.text) := by
    have hnothing : (trim []).isEmpty = true := rfl
    rw [splitTopLevel, hpieces, List.map_cons, List.map_map, List.filter_cons]
    simp only [hnothing, Bool.not_true, Bool.false_eq_true, if_false]
    exact kept_innerChunks hplain
  have hread : ∀ l ∈ ls, member? l.member.text = some l.member.property :=
    fun l hl => (hplain l hl).member.member?_text
  calc
    members ('\n' :: linesText (ls.map MemberLine.text)) limit
      = limited limit ((ls.map (·.member.text)).filterMap member?) :=
        congrArg (fun parts => limited limit (List.filterMap member? parts)) hsplit
    _ = limited limit (ls.map (·.member.property)) := by
        rw [List.filterMap_map, ← List.filterMap_eq_map]
        exact congrArg (limited limit) (List.filterMap_congr hread)

/-! ## Interfaces -/

/-- What an interface is printed from. -/
structure InterfaceText where
  exported : Bool
  name : List Char
  lines : List MemberLine

namespace InterfaceText

/-- What stands before the opening brace. -/
def front (i : InterfaceText) : List Char :=
  Declaration.word i.exported "export" ++ ("interface".toList ++ ' ' :: (i.name ++ [' ']))

/-- What stands between the braces. -/
def inner (i : InterfaceText) : List Char :=
  '\n' :: linesText (i.lines.map MemberLine.text)

/-- The interface as it is printed. -/
def text (i : InterfaceText) : List Char :=
  i.front ++ ('{' :: i.inner ++ ['}'])

/-- The record of the interface if it stands at the start of a file. -/
def record (i : InterfaceText) (limits : Limits) (path : String) : Interface where
  name := String.ofList i.name
  filePath := path
  lineStart := 1
  lineEnd := 1 + count '\n' i.text
  code := String.ofList (limits.keep "interface" i.text)
  properties := limited limits.properties (i.lines.map (·.member.property))
  bases := []
  isExported := i.exported

/-- The name is an identifier, and all lines are plain. -/
structure Plain (i : InterfaceText) : Prop where
  name : isIdentifier i.name = true
  lines : ∀ l ∈ i.lines, l.Plain

instance (i : InterfaceText) : Decidable i.Plain :=
  decidable_of_iff (isIdentifier i.name = true ∧ ∀ l ∈ i.lines, l.Plain)
    ⟨fun h => ⟨h.1, h.2⟩, fun h => ⟨h.name, h.lines⟩⟩

variable {i : InterfaceText}

/-- Braces between those of the interface are balanced. -/
theorem Plain.balanced_inner (h : i.Plain) : Balanced (· == '{') (· == '}') i.inner := by
  have hfeed : Balanced (· == '{') (· == '}') ['\n'] := by decide
  have hlines {above : List (List Char)}
      (habove : ∀ line ∈ above, Balanced (· == '{') (· == '}') line) :
      Balanced (· == '{') (· == '}') (linesText above) := by
    induction above with
    | nil => exact balanced_of_none fun c hc => by contradiction
    | cons line above ih =>
      obtain ⟨hline, habove⟩ := List.forall_mem_cons.mp habove
      rw [linesText_cons]
      exact hline.append (hfeed.append (ih habove))
  refine hfeed.append (hlines fun line hline => ?_)
  obtain ⟨l, hl, rfl⟩ := List.mem_map.mp hline
  exact (h.lines l hl).balanced_text

/-- What is kept of the header where it starts a text. -/
def captures (i : InterfaceText) : List Capture :=
  let start := (Declaration.word i.exported "export").length + "interface".toList.length + 1
  ⟨"name", start, start + i.name.length⟩ :: Declaration.kept i.exported "export" 0

/-- The header is matched at the start of a text. -/
theorem matchHere?_interface (hname : isIdentifier i.name = true) (subject rest : List Char) :
    interfaceRule.pattern.matchHere? subject ⟨[], (i.front ++ ['{']) ++ rest, 0, []⟩ false =
      some ⟨subject, 0, (i.front ++ ['{']).length, i.captures⟩ := by
  -- How far a part is read depends on what stands behind it, so the rests of the header get names.
  let brace := [' '] ++ ("\x7b".toList ++ rest)
  let back := "interface".toList ++ ([' '] ++ (i.name ++ brace))
  have hinked : back.head?.any isSpace = false := rfl
  have hdefault : (lit "default" ++ spaces1).Refuses back :=
    (refuses_lit 'd' rfl (by simp [back])).seq _
  have hexport : (opt (capture "export" (lit "export" ++ spaces1 ++ opt (lit "default"
      ++ spaces1)))).Prefers (Declaration.word i.exported "export") back 0
        (Declaration.kept i.exported "export" 0) := by
    refine prefers_word i.exported 0 ?_ ?_
    · exact (takes_word "export" 0 hinked).seq_nothing (hdefault.opt _)
    · exact ((refuses_lit 'e' rfl (by simp [back])).seq _).seq _
  have hdeclare (place : Nat) : (opt (lit "declare" ++ spaces1)).Takes [] back place [] :=
    ((refuses_lit 'd' rfl (by simp [back])).seq _).opt place
  have hident (place : Nat) : (capture "name" identifier).Prefers i.name brace place
      [⟨"name", place, place + i.name.length⟩] :=
    (prefers_identifier place hname rfl).capture "name"
  -- Type parameters and other interfaces would begin with something else than the brace.
  have hnone {p : Pattern} {set : CharSet} (hp : p.beginsPast .space set = true)
      (hset : set.mem '\x7b' = false) (place : Nat) : (opt p).Takes [] brace place [] :=
    (refuses_of_beginsPast hp rfl hset).opt place
  have hgenerics (place : Nat) : shortGenerics.Takes [] brace place [] :=
    hnone (by decide +kernel : beginsPast .space (.char '<') _ = true) rfl place
  have hextends (place : Nat) : (opt (spaces1 ++ lit "extends" ++ spaces1
      ++ capture "extends" (few1 (noneOf "\x7b")))).Takes [] brace place [] :=
    hnone (by decide +kernel : beginsPast .space (.char 'e') _ = true) rfl place
  have hfront := (hexport.seq_nothing (hdeclare _)).seq_word "interface"
    (inked_identifier hname brace)
  have hnamed := ((hfront.seq (hident _)).seq_nothing (hgenerics _)).seq_nothing (hextends _)
  have hmatch := matchHere?_prefers subject (rfl : startsLine [] = true) hnamed.seq_brace
  have htext : i.front ++ ['{'] = Declaration.word i.exported "export" ++ "interface".toList ++
      [' '] ++ i.name ++ [' '] ++ "\x7b".toList := by
    rw [front]
    simp only [List.append_assoc, List.cons_append, List.nil_append]
    rfl
  simp only [List.length_append, Nat.zero_add] at hmatch
  rw [htext]
  simp only [List.length_append]
  exact hmatch

/-- What the header keeps: the name, no other interfaces, and whether it is exported. -/
theorem groups_interface (i : InterfaceText) (rest : List Char) (stop : Nat) :
    let s : Span Unit := ⟨(), i.text ++ rest, 0, stop, i.captures⟩
    s.group "name" = i.name ∧ s.group "extends" = [] ∧ s.has "export" = i.exported := by
  intro s
  refine ⟨?_, ?_, ?_⟩
  · let words := Declaration.word i.exported "export" ++ "interface".toList ++ [' ']
    -- The name stands behind the words in front of it, which is where its capture begins.
    have hname := between_append words i.name ([' '] ++ ('{' :: i.inner ++ ['}']) ++ rest)
    have htext : i.text ++ rest =
        words ++ (i.name ++ ([' '] ++ ('{' :: i.inner ++ ['}']) ++ rest)) := by
      simp [text, front, words]
    have hlength : words.length = (Declaration.word i.exported "export").length +
        "interface".toList.length + 1 := by
      simp only [words, List.length_append, List.length_singleton]
    rw [← htext, hlength] at hname
    exact hname
  · show (s.found.group? "extends").getD [] = []
    rw [Match.group?, Match.span?]
    simp only [s, captures, Declaration.kept]
    cases i.exported <;> rfl
  · show s.found.has "export" = i.exported
    rw [Match.has, Match.span?]
    simp only [s, captures, Declaration.kept]
    cases i.exported <;> rfl

theorem text_eq (i : InterfaceText) : i.text = (i.front ++ ['{']) ++ (i.inner ++ ['}']) := by
  simp [text]

/-- The block of an interface at the start of a file is the interface. -/
theorem Plain.block_text (h : i.Plain) {ceiling : Int}
    (hceiling : (i.inner.length : Int) + 1 ≤ ceiling) (rest : List Char) (fallback : Int) :
    block (i.text ++ rest) 0 ((i.front ++ ['{']).length - 1) fallback ceiling = i.text := by
  have hblock := block_headed [] i.front rest fallback h.balanced_inner hceiling
  have hstop : (i.front ++ ['{']).length - 1 = 0 + i.front.length := by simp
  rw [hstop, text, List.append_assoc]
  exact hblock

/-- Its body is what stands between the braces. -/
theorem between_text (i : InterfaceText) (rest : List Char) :
    between (i.text ++ rest) (i.front ++ ['{']).length (0 + (withoutBrace i.text).length) =
      i.inner := by
  have hbrace : withoutBrace i.text = (i.front ++ ['{']) ++ i.inner := by
    have hlast : (((i.front ++ ['{']) ++ i.inner) ++ ['}']).getLast? == some '}' := by
      rw [List.getLast?_concat]
      rfl
    rw [text_eq, ← List.append_assoc, withoutBrace, if_pos hlast, List.dropLast_concat]
  have htext : i.text ++ rest = (i.front ++ ['{']) ++ (i.inner ++ (['}'] ++ rest)) := by
    simp [text_eq]
  have hmiddle := between_append (i.front ++ ['{']) i.inner (['}'] ++ rest)
  rw [← List.length_append] at hmiddle
  rw [hbrace, Nat.zero_add, htext]
  exact hmiddle

/-- **Interfaces.** A printed interface at the start of a file is the first one that is found. -/
theorem Plain.interfaces_printed (h : i.Plain) {limits : Limits}
    (hceiling : (i.inner.length : Int) + 1 ≤ limits.block) (info : FileInfo) (rest : List Char) :
    ∃ others, interfaces limits (View.ofFile info (i.text ++ rest)) =
      i.record limits info.path :: others := by
  let s : Span Unit := ⟨(), i.text ++ rest, 0, (i.front ++ ['{']).length, i.captures⟩
  obtain ⟨others, hothers⟩ : ∃ others, interfaceRule.pattern.findAll (i.text ++ rest) =
      s.found :: others := by
    have hmatch := matchHere?_interface h.name (i.text ++ rest) ((i.inner ++ ['}']) ++ rest)
    rw [← List.append_assoc, ← text_eq] at hmatch
    exact exists_findAll_cons hmatch
  have hfirst : buildInterface limits (View.ofFile info (i.text ++ rest)) s =
      i.record limits info.path := by
    have hstart : (View.ofFile info (i.text ++ rest)).lineAt 0 = 1 := lineAt_ofFile _ _ _
    obtain ⟨hname, hextends, hexport⟩ := i.groups_interface rest (i.front ++ ['{']).length
    have hcode := h.block_text hceiling rest limits.fallback
    have hmembers : members i.inner limits.properties =
        limited limits.properties (i.lines.map (·.member.property)) := members_inner h.lines _
    have hbases : splitTopLevel [] [','] = [] := rfl
    simp only [buildInterface, View.piece, Span.start, Span.stop, s, hname, hextends, hexport]
    simp only [View.ofFile] at hstart ⊢
    simp only [hcode, i.between_text rest, hstart, hmembers, hbases]
    rfl
  refine ⟨others.map fun m => buildInterface limits (View.ofFile info (i.text ++ rest)) ⟨(), m⟩, ?_⟩
  have hscan : interfaceRule.scan (i.text ++ rest) = s :: others.map fun m => ⟨(), m⟩ := by
    rw [Rule.scan, hothers, List.map_cons]
  rw [interfaces, scan_singleton]
  show (interfaceRule.scan (i.text ++ rest)).map _ = _
  rw [hscan, List.map_cons, hfirst, List.map_map]
  rfl

end InterfaceText

end CodeSurvey.Extract
