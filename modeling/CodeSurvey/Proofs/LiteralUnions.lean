import CodeSurvey.Extract.Types
import CodeSurvey.Proofs.LineSpans
import CodeSurvey.Proofs.Places
import CodeSurvey.Proofs.PlainFile
import CodeSurvey.Proofs.ReturnTypes

/-!
# Unions of string literals

The reading of a definition counts brackets, but it does not know literals: a bracket in quotes
opens or closes like any other, and a semicolon in quotes ends the definition. So a union of string
literals is read whole only if the texts of its literals do not mislead the count.

- `StopsAt`: the places of a line where a reading stops, quotes or not.
- `definitionLength_along`: a reading stands at the nesting of its place.
- `OneLine.defined_stop`, `OneLine.defined_whole`, `OneLine.defined_beyond`: where it ends.
- `exists_alias`: the alias at the start of a file.
- `aliases_literalUnion`: what is read of a union; `literalUnion_misread`: unions cut or run on.
-/

namespace CodeSurvey.Source

open Text

/-! ## Places where a definition stops -/

/-- The character, or one of a word in place of a quote. -/
def withoutQuote (c : Char) : Char :=
  if isQuote c then '_' else c

/-- The text as a scan sees it that does not know literals: quotes are characters like others. -/
def unquoted (text : List Char) : List Char :=
  text.map withoutQuote

/-- Whether the reading of a definition that gets to a place on the first line stops there: at a
semicolon or a closing bracket, whether or not it stands in a literal, outside all brackets. -/
def StopsAt (text : List Char) (place : Nat) : Prop :=
  text[place]?.any (fun c => isCloser c || c == ';') = true ∧ nesting (unquoted text) place ≤ 0

instance (text : List Char) (place : Nat) : Decidable (StopsAt text place) :=
  inferInstanceAs (Decidable (_ ∧ _))

variable {text rest : List Char} {c : Char} {place limit budget : Nat} {depth : Int}
  {ink previous : Option Char}

/-- Nothing stops behind the end of a text. -/
theorem StopsAt.lt_length (h : StopsAt text place) : place < text.length := by
  by_contra hplace
  have hany := h.1
  rw [List.getElem?_eq_none (Nat.le_of_not_lt hplace)] at hany
  contradiction

/-- A quote counts for brackets as little as the character in its place. -/
theorem typeDepth_withoutQuote (previous : Option Char) (depth : Int) (c : Char) :
    typeDepth (previous.map withoutQuote) depth (withoutQuote c) = typeDepth previous depth c := by
  have hprevious : previous.map withoutQuote = some '=' ↔ previous = some '=' := by
    cases previous with
    | none => simp
    | some d =>
      by_cases hquote : isQuote d = true
      · have hne : d ≠ '=' := by
          rintro rfl
          contradiction
        simp [withoutQuote, hquote, hne]
      · simp [withoutQuote, hquote]
  by_cases hquote : isQuote c = true
  · rw [typeDepth_plain (isTypeBracket_of_isQuote hquote), withoutQuote, if_pos hquote]
    exact typeDepth_plain (by decide)
  · simp only [withoutQuote, hquote, typeDepth, bne, beq_eq_decide, hprevious]
    rfl

/-- The depth of a scan that does not know literals is the nesting without quotes. -/
theorem typeDepth_unquoted (hprevious : previous ≠ some '=') (hplace : place < text.length) :
    typeDepth ((text.take place).getLast?.or previous) (nesting (unquoted text) place) text[place] =
      nesting (unquoted text) (place + 1) := by
  have hquotes : ∀ c ∈ unquoted text, isQuote c = false := by
    intro c hc
    obtain ⟨d, -, rfl⟩ := List.mem_map.mp hc
    rw [withoutQuote]
    split
    · decide
    · simpa using ‹¬isQuote d = true›
  have hlength : place < (unquoted text).length := by
    rw [unquoted, List.length_map]
    exact hplace
  have hlast : ((unquoted text).take place).getLast? =
      ((text.take place).getLast?).map withoutQuote := by
    rw [unquoted, ← List.map_take, List.getLast?_map]
  have hget : (unquoted text)[place] = withoutQuote text[place] := List.getElem_map _
  rw [typeDepth_or hprevious, ← typeDepth_eq_nesting hlength (codeAt_of_quotes hquotes place),
    hlast, hget, typeDepth_withoutQuote]

/-! ## The state of a reading -/

/-- Inside brackets a reading goes on over everything, and outside over what neither closes nor
ends. -/
theorem definitionLength_next (hcloser : isCloser c = true → 0 < depth) (hend : c = ';' → 0 < depth)
    (hline : c = '\n' → 0 < depth) :
    definitionLength (budget + 1) depth ink previous (c :: rest) =
      definitionLength budget (typeDepth previous depth c) (if isSpace c then ink else some c)
        (some c) rest + 1 := by
  rw [definitionLength]
  dsimp only
  rw [if_neg]
  split
  · exact Bool.false_ne_true
  · rename_i hopener
    split
    · rename_i hcloses
      have hpositive := hcloser hcloses
      rw [typeDepth, if_neg hopener, if_pos hcloses, decide_eq_true_eq]
      omega
    · split
      · rename_i hsemicolon
        have hpositive := hend (beq_iff_eq.mp hsemicolon)
        rw [decide_eq_true_eq]
        omega
      · split
        · rename_i hfeed
          rw [Bool.and_eq_true, beq_iff_eq, decide_eq_true_eq] at hfeed
          have hpositive := hline hfeed.1
          omega
        · exact Bool.false_ne_true

/-- A reading stops at a place where it stops. -/
theorem definitionLength_stops (hstops : (isCloser c || c == ';') = true) (hdepth : depth ≤ 0) :
    definitionLength budget depth ink previous (c :: rest) = 0 := by
  cases budget with
  | zero => rfl
  | succ budget =>
    rw [Bool.or_eq_true, beq_iff_eq] at hstops
    rw [definitionLength]
    dsimp only
    rw [if_pos]
    rcases hstops with hcloser | rfl
    · have hopener : isTypeOpener c = false := by
        rw [← Bool.not_eq_true]
        intro hopener
        rw [(Bool.or_eq_false_iff.mp (isTypeCloser_of_isTypeOpener hopener)).1] at hcloser
        contradiction
      rw [hopener, hcloser, if_neg Bool.false_ne_true, if_pos rfl, typeDepth, hopener, hcloser,
        if_neg Bool.false_ne_true, if_pos rfl, decide_eq_true_eq]
      omega
    · rw [if_neg (by decide), if_neg (by decide), if_pos (by decide), decide_eq_true_eq]
      exact hdepth

/-- A reading stops at the end of a line if neither the text up to it nor the next line tells that
the type goes on. -/
theorem definitionLength_line {last next : Char} (hdepth : depth ≤ 0)
    (hlast : goesOnAfter last = false) (hspace : isSpace next = false)
    (hnext : goesOnBefore next = false) :
    definitionLength budget depth (some last) previous ('\n' :: next :: rest) = 0 := by
  cases budget with
  | zero => rfl
  | succ budget =>
    have hahead : ((next :: rest).take lineLookahead).dropWhile isSpace =
        next :: rest.take 198 := by
      rw [lineLookahead, List.take_succ_cons, List.dropWhile_cons_of_neg (by rw [hspace]; decide)]
    rw [definitionLength]
    dsimp only
    rw [hahead, if_pos]
    rw [if_neg (by decide), if_neg (by decide), if_neg (by decide), if_pos (by simpa using hdepth)]
    simp [hlast, hnext]

/-- The last character of a text that is no blank. -/
def lastInk (text : List Char) : Option Char :=
  text.reverse.find? (!isSpace ·)

/-- **Readings.** As long as it has not come to a place where it stops, a reading of a text on one
line stands at the nesting of its place, whatever is in quotes. The induction is on the place. -/
theorem definitionLength_along (budget : Nat) (hline : '\n' ∉ text)
    (hprevious : previous ≠ some '=') (hlimit : limit ≤ text.length)
    (hstops : ∀ place < limit, ¬StopsAt text place) :
    definitionLength (limit + budget) 0 ink previous (text ++ rest) =
      definitionLength budget (nesting (unquoted text) limit)
        ((lastInk (text.take limit)).or ink) ((text.take limit).getLast?.or previous)
        (text.drop limit ++ rest) + limit := by
  induction limit generalizing budget with
  | zero =>
    rw [nesting_zero, Nat.zero_add]
    rfl
  | succ limit ih =>
    have hnext := ih (budget + 1) (Nat.le_of_succ_le hlimit)
      fun place hplace => hstops place (Nat.lt_succ_of_lt hplace)
    have hplace : limit < text.length := hlimit
    -- The place itself is the next character, which does not stop the reading.
    have hgoes : ¬((isCloser text[limit] || text[limit] == ';') = true ∧
        nesting (unquoted text) limit ≤ 0) := by
      have hstop := hstops limit (Nat.lt_succ_self limit)
      rw [StopsAt, List.getElem?_eq_getElem hplace, Option.any_some] at hstop
      exact hstop
    have hfeed : text[limit] ≠ '\n' := by
      intro hfeed
      exact hline (hfeed ▸ List.getElem_mem hplace)
    have htake := List.take_succ_eq_append_getElem hplace
    have hink : (lastInk (text.take (limit + 1))).or ink =
        if isSpace text[limit] then (lastInk (text.take limit)).or ink else some text[limit] := by
      rw [htake, lastInk, List.reverse_concat, List.find?_cons]
      cases isSpace text[limit] <;> rfl
    have hlast : (text.take (limit + 1)).getLast?.or previous = some text[limit] := by
      rw [htake, List.getLast?_concat, Option.some_or]
    rw [Nat.succ_add_eq_add_succ, hnext, List.drop_eq_getElem_cons hplace, List.cons_append,
      definitionLength_next ?closer ?semicolon (fun h => absurd h hfeed),
      typeDepth_unquoted hprevious hplace, hink, hlast]
    · omega
    case closer =>
      intro hcloser
      by_contra hdepth
      exact hgoes ⟨by rw [hcloser, Bool.true_or], by omega⟩
    case semicolon =>
      intro hsemicolon
      by_contra hdepth
      exact hgoes ⟨by rw [hsemicolon]; rfl, by omega⟩

/-! ## Definitions on one line -/

/-- A text on one line, without blanks around it, that does not end with a mark behind which a type
goes on. -/
structure OneLine (text : List Char) : Prop where
  line : '\n' ∉ text
  starts : ∃ c, text.head? = some c ∧ isSpace c = false
  ends : ∃ c, text.getLast? = some c ∧ isSpace c = false ∧ goesOnAfter c = false

/-- What a reading takes of a text behind a blank, with another line behind it. -/
def defined (budget : Nat) (text rest : List Char) : List Char :=
  let ahead := ' ' :: (text ++ '\n' :: rest)
  trim (ahead.take (definitionLength budget 0 none (some '=') ahead))

section

variable {next : Char}

/-- Behind its blank a text is read as far as it does not stop. -/
theorem OneLine.definitionLength_limit (h : OneLine text) (hlimit : limit ≤ text.length)
    (hstops : ∀ place < limit, ¬StopsAt text place) (left : Nat) (rest : List Char) :
    definitionLength (limit + left + 1) 0 none (some '=') (' ' :: (text ++ rest)) =
      definitionLength left (nesting (unquoted text) limit) (lastInk (text.take limit))
        ((text.take limit).getLast?.or (some ' ')) (text.drop limit ++ rest) + limit + 1 := by
  have hblank : typeDepth (some '=') 0 ' ' = 0 := typeDepth_plain (by decide)
  have halong : definitionLength (limit + left) 0 none (some ' ') (text ++ rest) = _ :=
    definitionLength_along left h.line (by decide) hlimit hstops
  rw [definitionLength_next (by decide) (by decide) (by decide), hblank, if_pos (by decide), halong,
    Option.or_none]

/-- Trimming takes the blank away that stands in front of a text. -/
theorem trim_indented (h : ∀ c, text.head? = some c → isSpace c = false) :
    trim (' ' :: text) = trimEnd text := by
  rw [trim_cons_blank (by decide), trim_of_inked_start h]

theorem OneLine.inked_append (h : OneLine text) (rest : List Char) :
    ∀ c, (text ++ rest).head? = some c → isSpace c = false := by
  intro c hc
  obtain ⟨d, hd, hinked⟩ := h.starts
  rw [List.head?_append, hd, Option.some_or] at hc
  exact Option.some.inj hc ▸ hinked

/-- **Stops.** A text with a place where the reading stops is defined up to the first one. -/
theorem OneLine.defined_stop (h : OneLine text)
    (hfirst : IsLeast {place | StopsAt text place} place) (hbudget : text.length + 1 ≤ budget) :
    defined budget text rest = trimEnd (text.take place) := by
  have hplace : place < text.length := hfirst.1.lt_length
  obtain ⟨left, rfl⟩ : ∃ left, budget = place + left + 1 := ⟨budget - place - 1, by omega⟩
  obtain ⟨hstops, hdepth⟩ := hfirst.1
  rw [List.getElem?_eq_getElem hplace, Option.any_some] at hstops
  have hlimit := h.definitionLength_limit (Nat.le_of_lt hplace)
    (fun earlier hearlier hstop => Nat.not_le_of_lt hearlier (hfirst.2 hstop)) left ('\n' :: rest)
  rw [List.drop_eq_getElem_cons hplace, List.cons_append, definitionLength_stops hstops hdepth,
    Nat.zero_add] at hlimit
  have hshort : ∀ c, (text.take place).head? = some c → isSpace c = false := by
    intro c hc
    apply h.inked_append [] c
    rw [List.append_nil, ← List.take_append_drop place text, List.head?_append, hc, Option.some_or]
  rw [defined, hlimit, List.take_succ_cons, List.take_append_of_le_length (Nat.le_of_lt hplace)]
  exact trim_indented hshort

/-- If it does not stop right away, something is defined. -/
theorem OneLine.defined_ne_nil (h : OneLine text) (hstart : ¬StopsAt text 0)
    (hbudget : 2 ≤ budget) : defined budget text rest ≠ [] := by
  obtain ⟨left, rfl⟩ : ∃ left, budget = 1 + left + 1 := ⟨budget - 2, by omega⟩
  obtain ⟨c, hc, hinked⟩ := h.starts
  obtain ⟨others, rfl⟩ := List.head?_eq_some_iff.mp hc
  have hlimit := h.definitionLength_limit (Nat.le_add_left 1 others.length)
    (fun place hplace => by rwa [Nat.lt_one_iff.mp hplace]) left ('\n' :: rest)
  generalize definitionLength left _ _ _ _ = more at hlimit
  have hshort : ∀ d, (c :: (others ++ '\n' :: rest).take more).head? = some d →
      isSpace d = false := fun d hd => Option.some.inj hd ▸ hinked
  have hone : [c].getLast? = some c := rfl
  rw [defined, hlimit, List.take_succ_cons, List.cons_append, List.take_succ_cons,
    trim_indented hshort, ← List.singleton_append, trimEnd_append_inked hone hinked]
  exact List.cons_ne_nil _ _

variable (h : OneLine text) (hnone : ∀ place, ¬StopsAt text place)
include h hnone

/-- **Whole lines.** A text without such a place is the definition if no more brackets open in it
than close and the next line does not go on with it. -/
theorem OneLine.defined_whole (hdepth : nesting (unquoted text) text.length ≤ 0)
    (hspace : isSpace next = false) (hnext : goesOnBefore next = false)
    (hbudget : text.length + 1 ≤ budget) : defined budget text (next :: rest) = text := by
  obtain ⟨left, rfl⟩ : ∃ left, budget = text.length + left + 1 :=
    ⟨budget - text.length - 1, by omega⟩
  obtain ⟨last, hlast, hinked, hends⟩ := h.ends
  have hink : lastInk text = some last := by
    obtain ⟨front, rfl⟩ := List.getLast?_eq_some_iff.mp hlast
    rw [lastInk, List.reverse_concat, List.find?_cons_of_pos (by simp [hinked])]
  have htrim : trimEnd text = text := trimEnd_of_inked hlast hinked
  have hlimit := h.definitionLength_limit (Nat.le_refl _) (fun place _ => hnone place) left
    ('\n' :: next :: rest)
  rw [List.take_length, List.drop_length, List.nil_append, hink,
    definitionLength_line hdepth hends hspace hnext, Nat.zero_add] at hlimit
  have hinked := h.inked_append []
  rw [List.append_nil] at hinked
  rw [defined, hlimit, List.take_succ_cons, List.take_left, trim_indented hinked, htrim]

/-- **Open brackets.** If more brackets open in it than close, the definition goes on behind the
line. -/
theorem OneLine.defined_beyond (hdepth : 0 < nesting (unquoted text) text.length)
    (hspace : isSpace next = false) (hbudget : text.length + 3 ≤ budget) :
    text ++ ['\n', next] <+: defined budget text (next :: rest) := by
  obtain ⟨left, rfl⟩ : ∃ left, budget = text.length + (left + 2) + 1 :=
    ⟨budget - text.length - 3, by omega⟩
  -- The reading comes to the end of the line with a bracket open, and passes the line feed and the
  -- next character with it.
  have hlimit := h.definitionLength_limit (Nat.le_refl _) (fun place _ => hnone place) (left + 2)
    ('\n' :: next :: rest)
  have hfeed {previous : Option Char} {depth : Int} : typeDepth previous depth '\n' = depth :=
    typeDepth_plain (by decide)
  rw [List.take_length, List.drop_length, List.nil_append,
    definitionLength_next (fun _ => hdepth) (fun _ => hdepth) (fun _ => hdepth), hfeed,
    definitionLength_next (fun _ => hdepth) (fun _ => hdepth) (fun _ => hdepth)] at hlimit
  generalize definitionLength left _ _ _ _ = more at hlimit
  have htake : (text ++ '\n' :: next :: rest).take (more + 1 + 1 + text.length) =
      text ++ ['\n', next] ++ rest.take more := by
    rw [Nat.add_comm, List.take_length_add_append, List.append_assoc]
    rfl
  have hlast : (text ++ ['\n', next]).getLast? = some next := by
    rw [List.getLast?_append]
    rfl
  have hinked := h.inked_append (['\n', next] ++ rest.take more)
  rw [← List.append_assoc] at hinked
  rw [defined, hlimit, List.take_succ_cons, htake, trim_indented hinked,
    trimEnd_append_inked hlast hspace]
  exact List.prefix_append _ _

end

end CodeSurvey.Source

namespace CodeSurvey.Extract

open Text Source Pattern

/-! ## Unions of string literals -/

/-- String literals in single quotes with bars between them. -/
def literalUnion (texts : List (List Char)) : List Char :=
  join " | ".toList (texts.map fun text => '\'' :: (text ++ ['\'']))

/-- Parts that end alike end so when they are joined. -/
theorem getLast?_join {separator : List Char} {parts : List (List Char)} {c : Char}
    (hne : parts ≠ []) (h : ∀ part ∈ parts, part.getLast? = some c) :
    (join separator parts).getLast? = some c := by
  induction parts with
  | nil => contradiction
  | cons part parts ih =>
    by_cases hrest : parts = []
    · subst hrest
      rw [join_singleton]
      exact h part List.mem_cons_self
    · have hlast := ih hrest fun other hother => h other (List.mem_cons_of_mem part hother)
      rw [join_cons hrest, List.getLast?_append, List.getLast?_append, hlast]
      rfl

/-- Unions stand on one line. -/
theorem oneLine_literalUnion {texts : List (List Char)} (hne : texts ≠ [])
    (hlines : ∀ text ∈ texts, '\n' ∉ text) : OneLine (literalUnion texts) where
  line := by
    intro hmem
    rcases mem_join hmem with hmem | ⟨part, hpart, hmem⟩
    · contradiction
    · obtain ⟨text, htext, rfl⟩ := List.mem_map.mp hpart
      have hline := hlines text htext
      simp [hline] at hmem
  starts := by
    obtain ⟨text, others, rfl⟩ := List.exists_cons_of_ne_nil hne
    refine ⟨'\'', ?_, by decide⟩
    rw [literalUnion, List.map_cons, join_eq_flatMap]
    rfl
  ends := by
    refine ⟨'\'', getLast?_join (by simpa using hne) fun part hpart => ?_, by decide, by decide⟩
    obtain ⟨text, -, rfl⟩ := List.mem_map.mp hpart
    rw [← List.cons_append]
    exact List.getLast?_concat

theorem not_stopsAt_literalUnion {texts : List (List Char)} (hne : texts ≠ []) :
    ¬StopsAt (literalUnion texts) 0 := by
  obtain ⟨text, others, rfl⟩ := List.exists_cons_of_ne_nil hne
  rintro ⟨hstops, -⟩
  rw [literalUnion, List.map_cons, join_eq_flatMap] at hstops
  contradiction

/-! ## Aliases -/

/-- The header of an alias, up to the equals sign. -/
def aliasHeader (name : List Char) : List Char :=
  "type ".toList ++ (name ++ " =".toList)

/-- The header of an alias is matched at the start of a file. -/
theorem matchHere?_alias (subject : List Char) {name : List Char} (hname : isIdentifier name = true)
    (rest : List Char) :
    aliasRule.pattern.matchHere? subject ⟨[], aliasHeader name ++ rest, 0, []⟩ false =
      some ⟨subject, 0, (aliasHeader name).length, [⟨"name", 5, 5 + name.length⟩]⟩ := by
  have hinked : (name ++ " =".toList ++ rest).head?.any isSpace = false := by
    rw [List.append_assoc]
    exact inked_identifier hname _
  have hname : identifier.Prefers name (" =".toList ++ rest) 5 [] :=
    prefers_identifier 5 hname rfl
  have hfirst : (aliasHeader name ++ rest).head? = some 't' := rfl
  have hexport : (lit "export" ++ spaces1).Refuses (aliasHeader name ++ rest) :=
    (refuses_lit 'e' rfl (by rw [hfirst]; decide)).seq _
  have hdeclare : (lit "declare" ++ spaces1).Refuses (aliasHeader name ++ rest) :=
    (refuses_lit 'd' rfl (by rw [hfirst]; decide)).seq _
  -- Type parameters would have to begin with an angle bracket.
  have hgenerics : (spaces ++ lit "<" ++ few (noneOf "=\n") ++ lit ">").Refuses
      (" =".toList ++ rest) :=
    have hbegins : (spaces ++ lit "<" ++ few (noneOf "=\n") ++ lit ">").beginsPast .space
        (.char '<') = true := by
      decide +kernel
    refuses_of_beginsPast hbegins rfl (by decide : (CharSet.char '<').mem '=' = false)
  have hblank : spaces.Prefers [' '] (['='] ++ rest) (5 + name.length) [] :=
    prefers_many _ rfl (List.forall_mem_singleton.mpr rfl)
  have hend := Takes.skip (hgenerics.opt _) (hblank.pass (takes_lit "=" rest _).prefers)
  have hbehind := (takes_spaces1 4 hinked).prefers.pass ((hname.capture "name").seq hend)
  have hread := (takes_lit "type" _ 0).prefers.pass hbehind
  have hheader := Takes.skip ((hexport.capture "export").opt 0) (Takes.skip (hdeclare.opt 0) hread)
  have hmatch := matchHere?_prefers subject (rfl : startsLine [] = true) hheader
  rw [Nat.zero_add] at hmatch
  exact hmatch

/-- What a word character begins does not go on with the line before it. -/
theorem plain_of_isWord {c : Char} (h : isWord c = true) :
    isSpace c = false ∧ goesOnBefore c = false := by
  constructor
  · rw [← Bool.not_eq_true]
    intro hspace
    rw [isWord_of_isSpace hspace] at h
    contradiction
  · rw [← Bool.not_eq_true]
    intro hmark
    simp only [goesOnBefore, Bool.or_eq_true, beq_iff_eq] at hmark
    rcases hmark with (((rfl | rfl) | rfl) | rfl) | rfl <;> contradiction

/-- **Aliases.** The first alias of a file that begins with one is what is defined behind its equals
sign, if anything is. -/
theorem exists_alias (limits : Limits) (info : FileInfo) {name : List Char}
    (hname : isIdentifier name = true) (text rest : List Char)
    (hdefined : defined limits.definition.toNat text rest ≠ []) :
    ∃ a others, aliases limits
        (View.ofFile info (aliasHeader name ++ ' ' :: (text ++ '\n' :: rest))) = a :: others ∧
      a.name = String.ofList name ∧ a.filePath = info.path ∧ a.lineStart = 1 ∧
      a.definition = String.ofList (defined limits.definition.toNat text rest) := by
  obtain ⟨content, hcontent⟩ : ∃ content,
      content = aliasHeader name ++ ' ' :: (text ++ '\n' :: rest) := ⟨_, rfl⟩
  have hmatch := matchHere?_alias content hname (' ' :: (text ++ '\n' :: rest))
  rw [← hcontent] at hmatch ⊢
  obtain ⟨others, hothers⟩ := exists_findAll_cons hmatch
  have hheader : aliasHeader name = "type ".toList ++ (name ++ " =".toList) := rfl
  have hdrop : content.drop (aliasHeader name).length = ' ' :: (text ++ '\n' :: rest) := by
    rw [hcontent, List.drop_left]
  -- The reading looks at the character before its start, which is the equals sign.
  have hprevious : content[(aliasHeader name).length - 1]? = some '=' := by
    have hlast : aliasHeader name = ("type ".toList ++ (name ++ [' '])) ++ ['='] := by
      rw [hheader, List.append_assoc, List.append_assoc]
      rfl
    rw [hcontent, hlast, List.length_append, List.length_singleton, Nat.add_sub_cancel,
      List.append_assoc, List.getElem?_append_right (Nat.le_refl _), Nat.sub_self]
    rfl
  have hdefinition : trim (between content (aliasHeader name).length
      (definitionEnd content (aliasHeader name).length limits.definition)) =
      defined limits.definition.toNat text rest := by
    rw [definitionEnd, hprevious, hdrop, between, hdrop, Nat.add_sub_cancel_left]
    rfl
  -- The name stands behind the keyword and a blank.
  have hgroup : (Match.mk content 0 (aliasHeader name).length
      [⟨"name", 5, 5 + name.length⟩]).group? "name" = some name := by
    show some (between content 5 (5 + name.length)) = some name
    have hparts : content = "type ".toList ++ (name ++ (" =".toList ++
        ' ' :: (text ++ '\n' :: rest))) := by
      rw [hcontent, hheader, List.append_assoc, List.append_assoc]
    rw [hparts]
    exact congrArg some (between_append "type ".toList name _)
  obtain ⟨a, hbuilt, hfields⟩ : ∃ a, buildAlias? limits (View.ofFile info content)
      ⟨(), content, 0, (aliasHeader name).length, [⟨"name", 5, 5 + name.length⟩]⟩ = some a ∧
      a.name = String.ofList name ∧ a.filePath = info.path ∧ a.lineStart = 1 ∧
      a.definition = String.ofList (defined limits.definition.toNat text rest) := by
    have hfirst : (View.ofFile info content).lineAt 0 = 1 := by
      rw [lineAt_ofFile]
      rfl
    rw [← hdefinition] at hdefined ⊢
    refine ⟨_, if_neg ?_, ?_, rfl, hfirst, rfl⟩
    · rw [List.isEmpty_iff]
      exact hdefined
    · exact congrArg (fun group => String.ofList (group.getD [])) hgroup
  have haliases : aliases limits (View.ofFile info content) =
      a :: (others.map fun m => (⟨(), m⟩ : Span Unit)).filterMap
        (buildAlias? limits (View.ofFile info content)) := by
    rw [aliases, scan_singleton, Rule.scan]
    show List.filterMap _ (List.map _ (aliasRule.pattern.findAll content)) = _
    rw [hothers, List.map_cons, List.filterMap_cons_some hbuilt]
  exact ⟨a, _, haliases, hfields⟩

/-- **Unions.** An alias of string literals on one line, with a line behind it that begins with a
word character, is read without regard to the quotes. Up to the first place where the reading stops
it is the definition; if there is none, the whole line is, unless more brackets open in it than
close. Then the next line belongs to the definition too. -/
theorem aliases_literalUnion (limits : Limits) (info : FileInfo) {name : List Char}
    (hname : isIdentifier name = true) {texts : List (List Char)} (hne : texts ≠ [])
    (hlines : ∀ text ∈ texts, '\n' ∉ text) {next : Char} (hnext : isWord next = true)
    (line : List Char) (hfits : ((literalUnion texts).length : Int) < limits.definition) :
    ∃ a others, aliases limits (View.ofFile info
        (aliasHeader name ++ ' ' :: (literalUnion texts ++ '\n' :: next :: line))) = a :: others ∧
      a.name = String.ofList name ∧ a.filePath = info.path ∧ a.lineStart = 1 ∧
      (∀ place, IsLeast {place | StopsAt (literalUnion texts) place} place →
        a.definition = String.ofList (trimEnd ((literalUnion texts).take place))) ∧
      ((∀ place, ¬StopsAt (literalUnion texts) place) →
        (nesting (unquoted (literalUnion texts)) (literalUnion texts).length ≤ 0 →
          a.definition = String.ofList (literalUnion texts)) ∧
        (0 < nesting (unquoted (literalUnion texts)) (literalUnion texts).length →
          ((literalUnion texts).length : Int) + 3 ≤ limits.definition →
          ∃ more, a.definition = String.ofList (literalUnion texts ++ '\n' :: next :: more))) := by
  have hunion := oneLine_literalUnion hne hlines
  obtain ⟨hspace, hmark⟩ := plain_of_isWord hnext
  obtain ⟨c, hc, -⟩ := hunion.starts
  have hpositive : 0 < (literalUnion texts).length := by
    obtain ⟨others, hothers⟩ := List.head?_eq_some_iff.mp hc
    rw [hothers]
    exact Nat.succ_pos _
  have hdefined : defined limits.definition.toNat (literalUnion texts) (next :: line) ≠ [] :=
    hunion.defined_ne_nil (not_stopsAt_literalUnion hne) (by omega)
  obtain ⟨a, others, haliases, hfields, hpath, hfirst, hdefinition⟩ :=
    exists_alias limits info hname (literalUnion texts) (next :: line) hdefined
  refine ⟨a, others, haliases, hfields, hpath, hfirst, ?stop, fun hnone => ⟨?whole, ?beyond⟩⟩
  case stop =>
    intro place hplace
    rw [hdefinition, hunion.defined_stop hplace (by omega)]
  case whole =>
    intro hdepth
    rw [hdefinition, hunion.defined_whole hnone hdepth hspace hmark (by omega)]
  case beyond =>
    intro hdepth hbudget
    have hbeyond : literalUnion texts ++ ['\n', next] <+:
        defined limits.definition.toNat (literalUnion texts) (next :: line) :=
      hunion.defined_beyond hnone hdepth hspace (by omega)
    obtain ⟨more, hmore⟩ := hbeyond
    refine ⟨more, ?_⟩
    rw [hdefinition, ← hmore, List.append_assoc]
    rfl

/-- A union whose brackets and semicolon are enclosed in one of its literals. -/
theorem aliases_literalUnion_enclosed :
    let limits : Limits := ⟨blockFallback, blockCeiling, signatureCeiling, definitionCeiling, 50,
      .ok []⟩
    let union := literalUnion ["(;)".toList, "x => y".toList]
    union = "'(;)' | 'x => y'".toList ∧ (∀ place, ¬StopsAt union place) ∧
    ∃ a others, aliases limits (View.ofFile default
        (aliasHeader ['T'] ++ ' ' :: (union ++ '\n' :: 'c' :: "onst b = 1\n".toList))) =
          a :: others ∧
      a.definition = "'(;)' | 'x => y'" := by
  intro limits union
  have hunion : union = "'(;)' | 'x => y'".toList := by decide +kernel
  have hstops : ∀ place < union.length, ¬StopsAt union place := by decide +kernel
  have hnone (place : Nat) : ¬StopsAt union place := fun h => hstops place h.lt_length h
  obtain ⟨a, others, haliases, -, -, -, -, hwhole⟩ :=
    aliases_literalUnion limits default (by decide : isIdentifier ['T'] = true)
      (List.cons_ne_nil "(;)".toList ["x => y".toList]) (by decide +kernel)
      (by decide +kernel : isWord 'c' = true) "onst b = 1\n".toList (by decide +kernel)
  refine ⟨hunion, hnone, a, others, haliases, ?_⟩
  rw [(hwhole hnone).1 (by decide +kernel)]
  show String.ofList union = _
  rw [hunion, String.ofList_toList]

/-- **Unions that are cut or run on.** A bracket in a literal makes the alias swallow the line
behind it, and a semicolon in a literal ends it there. -/
theorem literalUnion_misread :
    let limits : Limits := ⟨blockFallback, blockCeiling, signatureCeiling, definitionCeiling, 50,
      .ok []⟩
    let file (union : List Char) := View.ofFile default
      (aliasHeader ['T'] ++ ' ' :: (union ++ '\n' :: 'c' :: "onst b = 1\n".toList))
    let definitions (texts : List String) :=
      (aliases limits (file (literalUnion (texts.map String.toList)))).map (·.definition)
    (literalUnion ["(".toList, "a".toList] = "'(' | 'a'".toList ∧
      definitions ["(", "a"] = ["'(' | 'a'\nconst b = 1"]) ∧
    literalUnion ["a;b".toList, "c".toList] = "'a;b' | 'c'".toList ∧
      definitions ["a;b", "c"] = ["'a"] := by
  decide +kernel

end CodeSurvey.Extract
