import CodeSurvey.Extract.Functions
import CodeSurvey.Proofs.Balance
import CodeSurvey.Proofs.Matching

/-!
# Plain declarations

A plain declaration of a function stands on the lines that it takes: its header and its signature on
one, and no later line of it starts with a letter.

- `Declaration`: what a plain declaration is written from, and its text.
- `matchHere?_declaration`: the header is matched, with what it keeps.
- `bindingStart_refuses`: no form of a bound function is matched there.
- `readCallable_declaration`: what is read behind the header.
-/

namespace CodeSurvey.Extract

open Text Source Pattern

/-! ## Declarations -/

/-- A declaration of a function. -/
structure Declaration where
  exported : Bool
  isAsync : Bool
  name : List Char
  params : List Char
  type? : Option (List Char)
  body : List Char

namespace Declaration

/-- A word with a blank, or nothing. -/
def word (on : Bool) (text : String) : List Char :=
  if on then text.toList ++ [' '] else []

/-- Everything before the parameters. -/
def header (d : Declaration) : List Char :=
  word d.exported "export" ++ (word d.isAsync "async" ++
    ("function".toList ++ (' ' :: (d.name ++ ['(']))))

/-- The return type with the colon before it. -/
def typeText (d : Declaration) : List Char :=
  match d.type? with
  | some type => ':' :: ' ' :: type
  | none => []

/-- Everything behind the parameters. -/
def remainder (d : Declaration) : List Char :=
  d.typeText ++ (' ' :: '{' :: (d.body ++ ['}']))

/-- The text of a declaration. -/
def text (d : Declaration) : List Char :=
  d.header ++ (d.params ++ (')' :: d.remainder))

end Declaration

/-! ## Plainness -/

/-- Whether a text is an identifier. -/
def isIdentifier : List Char → Bool
  | [] => false
  | c :: rest => identifierStart.mem c && rest.all identifierRest.mem

/-- Whether a line is empty or starts with a blank or a closing brace. A carriage return may stand
before the line feed. -/
def isIndented (line : List Char) : Bool :=
  line.head?.all fun c => c == ' ' || c == '\t' || c == '}' || c == '\r'

/-- A return type on one line. Round, square and angle brackets are counted together, which asks for
less than balance in each kind. -/
structure PlainType (type : List Char) : Prop where
  line : '\n' ∉ type
  inked : isBlank type = false
  balanced : Balanced isTypeOpener isTypeCloser type
  inner : type.any endsType = false

/-- Where none of the characters is of a class, each of them is not. -/
theorem eq_false_of_any {p : Char → Bool} {text : List Char} (h : text.any p = false) :
    ∀ c ∈ text, p c = false := fun c hc => by
  simpa using List.any_eq_false.mp h c hc

/-- The signature stands on one line without quotes, brackets are balanced, and the lines of the
body behind the first one are indented. -/
structure Declaration.Plain (d : Declaration) : Prop where
  name : isIdentifier d.name = true
  paramsLine : '\n' ∉ d.params
  paramsQuotes : d.params.any isQuote = false
  paramsBalanced : Balanced (· == '(') (· == ')') d.params
  type : ∀ type, d.type? = some type → PlainType type
  bodyBalanced : Balanced (· == '{') (· == '}') d.body
  bodyLines : ∀ line ∈ (splitAt '\n' d.body).tail, isIndented line = true

/-- The declaration lies within the ceilings of the scans. -/
structure Declaration.Fits (limits : Limits) (d : Declaration) : Prop where
  params : (d.params.length : Int) + 2 ≤ limits.signature
  type : ∀ type, d.type? = some type → (type.length : Int) + 2 ≤ limits.signature
  body : (d.body.length : Int) + 1 ≤ limits.block

/-! ## Letters and lines -/

/-- Nothing in an identifier ends a line. -/
theorem notMem_identifier {name : List Char} (h : isIdentifier name = true) : '\n' ∉ name := by
  cases name with
  | nil => simp
  | cons c rest =>
    simp only [isIdentifier, Bool.and_eq_true, List.all_eq_true] at h
    obtain ⟨hc, hrest⟩ := h
    intro hmem
    rcases List.mem_cons.mp hmem with rfl | hmem
    · exact absurd hc (by decide)
    · exact absurd (hrest _ hmem) (by decide)

/-- The line of the header is not left within it. -/
theorem Declaration.Plain.notMem_header {d : Declaration} (h : d.Plain) : '\n' ∉ d.header := by
  have hname := notMem_identifier h.name
  have hexport (on : Bool) : '\n' ∉ Declaration.word on "export" := by cases on <;> decide
  have hasync (on : Bool) : '\n' ∉ Declaration.word on "async" := by cases on <;> decide
  simp [Declaration.header, hexport, hasync, hname]

/-- Nor is it within the return type. -/
theorem Declaration.Plain.notMem_typeText {d : Declaration} (h : d.Plain) :
    '\n' ∉ d.typeText := by
  rw [Declaration.typeText]
  cases htype : d.type? with
  | none => simp
  | some type => simpa using (h.type type htype).line

/-- A text has a first line. -/
theorem splitAt_eq_cons (c : Char) (text : List Char) :
    ∃ first others, splitAt c text = first :: others := by
  cases text with
  | nil => exact ⟨[], [], rfl⟩
  | cons d rest =>
    rw [splitAt]
    split
    · exact ⟨[], splitAt c rest, rfl⟩
    · split
      · exact ⟨_, _, rfl⟩
      · exact ⟨_, _, rfl⟩

/-- An indented line starts with no letter. -/
theorem letters_of_isIndented {c : Char} {line : List Char} (h : isIndented (c :: line) = true) :
    CharSet.letters.mem c = false := by
  simp only [isIndented, List.head?_cons, Option.all_some, Bool.or_eq_true, beq_iff_eq] at h
  rcases h with ((rfl | rfl) | rfl) | rfl <;> decide

/-- Indented lines are quiet; where the text starts in the middle of a line, this one is left out.
The induction is over the text, and a line feed turns the second case into the first. -/
theorem quiet_of_lines (text : List Char) :
    ((∀ line ∈ splitAt '\n' text, isIndented line = true) → Quiet true text) ∧
      ((∀ line ∈ (splitAt '\n' text).tail, isIndented line = true) → Quiet false text) := by
  induction text with
  | nil => exact ⟨fun _ => trivial, fun _ => trivial⟩
  | cons c rest ih =>
    by_cases hc : (c == '\n') = true
    · have hsplit : splitAt '\n' (c :: rest) = [] :: splitAt '\n' rest := by rw [splitAt, if_pos hc]
      have hbreak : CharSet.letters.mem c = false := by
        rw [beq_iff_eq.mp hc]
        decide
      rw [hsplit]
      refine ⟨fun h => ⟨fun _ => hbreak, ?_⟩, fun h => ⟨fun _ => hbreak, ?_⟩⟩
      · rw [hc]
        exact ih.1 fun line hline => h line (List.mem_cons_of_mem _ hline)
      · rw [hc]
        exact ih.1 h
    · obtain ⟨first, others, hrest⟩ := splitAt_eq_cons '\n' rest
      have hsplit : splitAt '\n' (c :: rest) = (c :: first) :: others := by
        rw [splitAt, if_neg hc, hrest]
      have hfalse : (c == '\n') = false := by simpa using hc
      rw [hsplit]
      rw [hrest] at ih
      refine ⟨fun h => ⟨fun _ => letters_of_isIndented (h _ List.mem_cons_self), ?_⟩,
        fun h => ⟨by simp, ?_⟩⟩
      · rw [hfalse]
        exact ih.2 fun line hline => h line (List.mem_cons_of_mem _ hline)
      · rw [hfalse]
        exact ih.2 h

/-- Nothing behind the header looks like another one. -/
theorem Declaration.Plain.quiet_signature {d : Declaration} (h : d.Plain) :
    Quiet false (d.params ++ (')' :: d.remainder)) := by
  have hend : Quiet true ['}'] := by
    apply quiet_of_noLetters
    intro c hc
    obtain rfl := List.mem_singleton.mp hc
    decide
  have hbody : Quiet false (d.body ++ ['}']) :=
    Quiet.append hend ((quiet_of_lines d.body).2 h.bodyLines)
  have hbrace : '\n' ∉ [' ', '{'] := by decide
  have hparen : '\n' ∉ [')'] := by decide
  have hremainder : Quiet false d.remainder :=
    quiet_append h.notMem_typeText (quiet_append hbrace hbody)
  exact quiet_append h.paramsLine (quiet_append hparen hremainder)

/-- Nothing in a declaration looks like another one. -/
theorem Declaration.Plain.quiet {d : Declaration} (h : d.Plain) : Quiet false d.text :=
  quiet_append h.notMem_header h.quiet_signature

/-! ## Headers -/

namespace Declaration

/-- What is kept of a word. -/
def kept (on : Bool) (text : String) (start : Nat) : List Capture :=
  if on then [⟨text, start, start + (text.toList ++ [' ']).length⟩] else []

/-- What is kept of the header where it starts, last first. -/
def captures (d : Declaration) (start : Nat) : List Capture :=
  let asyncStart := start + (word d.exported "export").length
  let nameStart := asyncStart + (word d.isAsync "async").length + "function".toList.length + 1
  ([⟨"name", nameStart, nameStart + d.name.length⟩] ++ kept d.isAsync "async" asyncStart)
    ++ kept d.exported "export" start

end Declaration

/-- A word that may stand there is read if it does. -/
theorem prefers_word {text : String} {rest : List Char} {p : Pattern} (on : Bool)
    (offset : Nat) (hon : p.Takes (text.toList ++ [' ']) rest offset []) (hoff : p.Refuses rest) :
    (opt (capture text p)).Prefers (Declaration.word on text) rest offset
      (Declaration.kept on text offset) := by
  cases on with
  | true => exact (hon.capture text).prefers.opt
  | false => exact ((hoff.capture text).opt offset).prefers

/-- What follows the word for exports starts with one of two letters. -/
theorem head?_async (on : Bool) (more rest : List Char) :
    (Declaration.word on "async" ++ ("function".toList ++ more) ++ rest).head? =
      some (if on then 'a' else 'f') := by
  cases on <;> rfl

/-- An identifier is read to its end. -/
theorem prefers_identifier {name rest : List Char} (offset : Nat) (hname : isIdentifier name = true)
    (hrest : rest.head?.any identifierRest.mem = false) :
    identifier.Prefers name rest offset [] := by
  cases name with
  | nil => exact absurd hname (by decide)
  | cons c others =>
    simp only [isIdentifier, Bool.and_eq_true, List.all_eq_true] at hname
    exact (takes_one _ offset hname.1).prefers.pass (prefers_many _ hrest hname.2)

/-- An identifier starts with a character for it, whatever follows. -/
theorem head?_identifier {name : List Char} (rest : List Char) (hname : isIdentifier name = true) :
    ∃ c, (name ++ rest).head? = some c ∧ identifierStart.mem c = true := by
  cases name with
  | nil => exact absurd hname (by decide)
  | cons c others =>
    simp only [isIdentifier, Bool.and_eq_true] at hname
    exact ⟨c, rfl, hname.1⟩

/-- Among the Latin letters and what stands between them there are no blanks. -/
theorem isSpace_of_between {c : Char} (hlow : 'A' ≤ c) (hhigh : c ≤ 'z') : isSpace c = false := by
  have hlow : 65 ≤ c.toNat := UInt32.le_iff_toNat_le.mp hlow
  have hhigh : c.toNat ≤ 122 := UInt32.le_iff_toNat_le.mp hhigh
  have hascii : c.toNat < 128 := by omega
  simp only [isSpace, if_pos hascii, Bool.or_eq_false_iff, Bool.and_eq_false_iff,
    beq_eq_false_iff_ne, decide_eq_false_iff_not]
  omega

/-- No identifier starts with a blank. -/
theorem isSpace_of_identifierStart {c : Char} (h : identifierStart.mem c = true) :
    isSpace c = false := by
  simp only [identifierStart, CharSet.unions, CharSet.letters, CharSet.mem, Bool.or_eq_true,
    Bool.and_eq_true, decide_eq_true_eq, beq_iff_eq] at h
  rcases h with (⟨hlow, hhigh⟩ | ⟨hlow, hhigh⟩) | rfl | rfl
  · exact isSpace_of_between hlow (Char.le_trans hhigh (by decide))
  · exact isSpace_of_between (Char.le_trans (by decide) hlow) hhigh
  · decide
  · decide

/-- So a text that begins with an identifier begins with no blank. -/
theorem inked_identifier {name : List Char} (hname : isIdentifier name = true) (rest : List Char) :
    (name ++ rest).head?.any isSpace = false := by
  obtain ⟨c, hc, hstart⟩ := head?_identifier rest hname
  rw [hc]
  exact isSpace_of_identifierStart hstart

/-- The name is kept, and the parenthesis stands right behind it. -/
theorem prefers_name {p : Pattern} {name rest : List Char} {offset : Nat}
    (hread : p.Prefers name (['('] ++ rest) offset []) :
    (capture "name" p ++ (spaces ++ (generics ++ (spaces ++ lit "(")))).Prefers
      (name ++ ['(']) rest offset [⟨"name", offset, offset + name.length⟩] := by
  have hinked : CharSet.space.mem '(' = false := by decide
  have hspaces (place : Nat) : spaces.Takes [] (['('] ++ rest) place [] :=
    takes_many_nil place hinked
  have hgenerics (place : Nat) : generics.Takes [] (['('] ++ rest) place [] :=
    (((refuses_lit '<' rfl (by simp)).seq _).seq _).opt place
  have hparen (place : Nat) : (lit "(").Prefers ['('] rest place [] :=
    (takes_lit "(" rest place).prefers
  have hbehind := (hspaces _).skip ((hgenerics _).skip ((hspaces _).skip (hparen
    (offset + name.length))))
  exact (hread.capture "name").seq hbehind

/-- **Headers.** Where a declaration stands at the start of a line, the pattern for declarations
matches its header. -/
theorem matchHere?_declaration {d : Declaration} (hname : isIdentifier d.name = true)
    (subject : List Char) {before : List Char} (rest : List Char) (offset : Nat)
    (hline : startsLine before = true) :
    declarationHeader.matchHere? subject ⟨before, d.header ++ rest, offset, []⟩ false =
      some ⟨subject, offset, offset + d.header.length, d.captures offset⟩ := by
  apply matchHere?_prefers subject hline
  simp only [seqs_cons_cons, seqs_singleton]
  -- The words before the name: each option is told by the first letter of what follows.
  have hletter (c : Char) (hc : c ≠ 'a' ∧ c ≠ 'f') :
      (Declaration.word d.isAsync "async" ++ ("function".toList ++ (' ' :: (d.name ++ ['(']))) ++
        rest).head? ≠ some c := by
    rw [head?_async]
    cases d.isAsync <;> simp [hc.1.symm, hc.2.symm]
  have hink : (Declaration.word d.isAsync "async" ++
      ("function".toList ++ (' ' :: (d.name ++ ['(']))) ++ rest).head?.any isSpace = false := by
    rw [head?_async]
    cases d.isAsync <;> decide
  rw [Declaration.header]
  refine Prefers.seq (prefers_word d.exported offset ?_ ?_) ?_
  -- Behind an export the word for defaults is tried too.
  · have hdefault : "default".toList = 'd' :: "efault".toList := rfl
    have hrefuses := (refuses_lit 'd' hdefault (hletter 'd' (by decide))).seq spaces1
    exact (takes_word "export" offset hink).seq_nothing (hrefuses.opt _)
  · exact ((refuses_lit 'e' rfl (hletter 'e' (by decide))).seq _).seq _
  refine Takes.skip ?_ ?_
  · exact ((refuses_lit 'd' rfl (hletter 'd' (by decide))).seq _).opt _
  refine Prefers.seq (prefers_word d.isAsync _ ?_ ?_) ?_
  · exact takes_word "async" _ (by simp; decide)
  · exact (refuses_lit 'a' rfl (by simp)).seq _
  refine Prefers.pass (takes_lit "function" _ _).prefers ?_
  -- Between the words and the name stands one blank, and nothing behind the name.
  obtain ⟨c, hhead, hstart⟩ := head?_identifier (['('] ++ rest) hname
  rw [← List.append_assoc] at hhead
  have hfirst : (d.name ++ ['('] ++ rest).head?.any isSpace = false := by
    rw [hhead]
    exact isSpace_of_identifierStart hstart
  have hspaces (offset : Nat) : spaces.Prefers [' '] (d.name ++ ['('] ++ rest) offset [] := by
    refine prefers_many _ hfirst fun c hc => ?_
    obtain rfl := List.mem_singleton.mp hc
    decide
  refine Prefers.pass (hspaces _) ?_
  refine Takes.skip ?_ ?_
  · have hstar : c ≠ '*' := by
      rintro rfl
      exact absurd hstart (by decide)
    exact (refuses_lit '*' rfl (by rw [hhead]; simpa using hstar)).opt _
  refine Takes.skip (takes_many_nil _ hfirst) ?_
  exact prefers_name (prefers_identifier _ hname rfl)

/-- The pattern for declarations needs a letter at the start of a line. -/
theorem declarationHeader_anchored : declarationHeader.Anchored := by
  refine anchored_lineStart fun text htext => ?_
  simp only [seqs_cons_cons, seqs_singleton]
  have hexport := refuses_lit_of_noLetter "export" 'e' rfl (by decide) htext
  have hdeclare := refuses_lit_of_noLetter "declare" 'd' rfl (by decide) htext
  have hasync := refuses_lit_of_noLetter "async" 'a' rfl (by decide) htext
  have hfunction := refuses_lit_of_noLetter "function" 'f' rfl (by decide) htext
  refine (((hexport.seq _).seq _).capture _).opt_seq ?_
  refine (hdeclare.seq _).opt_seq ?_
  refine ((hasync.seq _).capture _).opt_seq ?_
  exact hfunction.seq _

/-! ## Bound functions -/

/-- A word that binds a name is refused where none of the three starts. -/
theorem refuses_binders {text : List Char}
    (h : ∀ c, text.head? = some c → c ≠ 'c' ∧ c ≠ 'l' ∧ c ≠ 'v') :
    (words ["const", "let", "var"]).Refuses text := by
  apply refuses_alts
  intro q hq
  simp only [List.map_cons, List.map_nil, List.mem_cons, List.not_mem_nil, or_false] at hq
  rcases hq with rfl | rfl | rfl
  · exact refuses_lit 'c' rfl fun hhead => (h _ hhead).1 rfl
  · exact refuses_lit 'l' rfl fun hhead => (h _ hhead).2.1 rfl
  · exact refuses_lit 'v' rfl fun hhead => (h _ hhead).2.2 rfl

/-- The pattern for bindings needs a letter at the start of a line. -/
theorem bindingStart_anchored : bindingStart.Anchored := by
  refine anchored_lineStart fun text htext => ?_
  simp only [seqs_cons_cons, seqs_singleton]
  have hexport := refuses_lit_of_noLetter "export" 'e' rfl (by decide) htext
  refine ((hexport.seq _).capture _).opt_seq ?_
  refine (refuses_binders fun c hhead => ?_).seq _
  rw [hhead, Option.any_some] at htext
  refine ⟨?_, ?_, ?_⟩ <;> · rintro rfl; exact absurd htext (by decide)

/-- Where a declaration stands there is no binding: neither it nor what follows its word for exports
starts with a word that binds. -/
theorem bindingStart_refuses (d : Declaration) (rest : List Char) :
    bindingStart.Refuses (d.text ++ rest) := by
  apply Refuses.lineStart
  simp only [seqs_cons_cons, seqs_singleton]
  obtain ⟨more, hmore⟩ : ∃ more, d.text ++ rest = Declaration.word d.exported "export" ++
      (Declaration.word d.isAsync "async" ++ ("function".toList ++ more) ++ rest) := by
    refine ⟨' ' :: (d.name ++ ['(']) ++ (d.params ++ (')' :: d.remainder)), ?_⟩
    simp only [Declaration.text, Declaration.header, List.append_assoc, List.cons_append,
      List.nil_append]
  have hbinders : (words ["const", "let", "var"]).Refuses
      (Declaration.word d.isAsync "async" ++ ("function".toList ++ more) ++ rest) := by
    refine refuses_binders fun c hhead => ?_
    rw [head?_async, Option.some.injEq] at hhead
    subst hhead
    cases d.isAsync <;> decide
  rw [hmore]
  -- Either there is no word for exports to be read, or no word that binds follows it.
  cases d.exported with
  | false =>
    have hexport : (lit "export").Refuses
        (Declaration.word d.isAsync "async" ++ ("function".toList ++ more) ++ rest) := by
      refine refuses_lit 'e' rfl ?_
      rw [head?_async]
      cases d.isAsync <;> decide
    exact ((hexport.seq _).capture _).opt_seq (hbinders.seq _)
  | true =>
    have hink : (Declaration.word d.isAsync "async" ++ ("function".toList ++ more) ++
        rest).head?.any isSpace = false := by
      rw [head?_async]
      cases d.isAsync <;> decide
    refine Takes.opt_seq_refuses (fun offset => ⟨_, (takes_word "export" offset hink).capture _⟩)
      (hbinders.seq _) ((refuses_binders fun c hhead => ?_).seq _)
    obtain rfl : 'e' = c := Option.some.inj hhead
    decide

/-! ## Signatures and bodies -/

/-- Nothing is skipped in front of a character that is no blank. -/
theorem skipBlanks_append {before rest : List Char} (h : rest.head?.any isSpace = false) :
    skipBlanks (before ++ rest) before.length = before.length := by
  cases rest with
  | nil => simp [skipBlanks]
  | cons c rest =>
    have hc : isSpace c = false := by simpa using h
    simp [skipBlanks, hc]

variable {limits : Limits} {d : Declaration}

/-- The remainder, taken apart in front of the body. -/
theorem append_remainder (d : Declaration) (before rest : List Char) :
    before ++ (d.remainder ++ rest) =
      (before ++ (d.typeText ++ [' '])) ++ ('{' :: d.body ++ ['}'] ++ rest) := by
  simp [Declaration.remainder]

/-- Where the body opens. -/
theorem length_append_typeText (d : Declaration) (before : List Char) :
    (before ++ (d.typeText ++ [' '])).length = before.length + d.typeText.length + 1 := by
  simp only [List.length_append, List.length_singleton, Nat.add_assoc]

/-- The body opens behind the type. -/
theorem drop_remainder (d : Declaration) (before rest : List Char) :
    (before ++ (d.remainder ++ rest)).drop (before.length + d.typeText.length + 1) =
      '{' :: (d.body ++ ['}'] ++ rest) := by
  rw [append_remainder, ← length_append_typeText, List.drop_left]
  simp

/-- The return type is read up to the blank before the body, or to the brace if there is none; in
both cases the body opens at the next character that is no blank. -/
theorem returnType_remainder (h : d.Plain) (hfits : d.Fits limits) (before rest : List Char) :
    ∃ stop, returnType (before ++ (d.remainder ++ rest)) before.length limits.signature =
        (d.type?.map squeeze, stop) ∧
      skipBlanks (before ++ (d.remainder ++ rest)) stop =
        before.length + d.typeText.length + 1 := by
  have hbrace : isSpace '{' = false := by decide
  have hblank : isSpace ' ' = true := by decide
  have hskip : skipBlanks (before ++ (d.remainder ++ rest))
      (before.length + d.typeText.length + 1) = before.length + d.typeText.length + 1 := by
    rw [append_remainder, ← length_append_typeText]
    exact skipBlanks_append hbrace
  cases htype : d.type? with
  -- Without a type only the blank before the brace is read.
  | none =>
    have htypeText : d.typeText = [] := by rw [Declaration.typeText, htype]
    have hread := returnType_brace before (d.body ++ ['}'] ++ rest) limits.signature
    have htext : before ++ (d.remainder ++ rest) =
        before ++ ' ' :: '{' :: (d.body ++ ['}'] ++ rest) := by
      simp [Declaration.remainder, htypeText]
    rw [htypeText, List.length_nil, Nat.add_zero] at hskip
    refine ⟨before.length + 1, ?_, ?_⟩
    · rw [htext, hread]
      rfl
    · rw [hskip, htypeText, List.length_nil, Nat.add_zero]
  | some type =>
    have htypeText : d.typeText = ':' :: ' ' :: type := by rw [Declaration.typeText, htype]
    obtain ⟨_, hinked, hbalanced, hinner⟩ := h.type type htype
    have hread := returnType_balanced before (d.body ++ ['}'] ++ rest) hbalanced
      (eq_false_of_any hinner) hinked (hfits.type type htype)
    have htext : before ++ (d.remainder ++ rest) =
        before ++ (':' :: ' ' :: (type ++ ' ' :: '{' :: (d.body ++ ['}'] ++ rest))) := by
      simp [Declaration.remainder, htypeText]
    have hstop : before.length + (type.length + 3) = before.length + d.typeText.length + 1 := by
      rw [htypeText, List.length_cons, List.length_cons]
      omega
    rw [← htext, hstop] at hread
    exact ⟨_, hread, hskip⟩

/-- The body is the last part of the remainder. -/
theorem blockStop_remainder (h : d.Plain) (hfits : d.Fits limits) (before rest : List Char) :
    blockStop limits (before ++ (d.remainder ++ rest)) (before.length + d.typeText.length + 1) =
      before.length + d.remainder.length := by
  have hblock := block_balanced (before ++ (d.typeText ++ [' '])) rest blockFallback h.bodyBalanced
    hfits.body
  rw [← append_remainder, length_append_typeText] at hblock
  rw [blockStop, hblock]
  simp only [Declaration.remainder, List.length_append, List.length_cons, List.length_nil]
  omega

/-- A declared callable is read where its parameters close and a brace follows the return type. -/
theorem readCallable_of_brace {content more : List Char} {paren close stop : Nat}
    {type : Option (List Char)} (hclosing : closing? content paren limits.signature = some close)
    (hreturn : returnType content (close + 1) limits.signature = (type, stop))
    (hbrace : content.drop (skipBlanks content stop) = '{' :: more) :
    readCallable limits content paren .forbidden =
      some ⟨between content (paren + 1) close, close + 1, type, skipBlanks content stop,
        blockStop limits content (skipBlanks content stop)⟩ := by
  have harrow : startsWith ('{' :: more) ['=', '>'] = false := rfl
  have hopening : content[skipBlanks content stop]? = some '{' := by
    rw [← List.head?_drop, hbrace]
    rfl
  rw [readCallable, hclosing]
  simp only [Option.bind_eq_bind, Option.bind_some, hreturn, hbrace, harrow, hopening,
    Bool.false_eq_true, if_false, beq_self_eq_true, if_true]
  rfl

/-- **Signatures and bodies.** Behind its header the declaration is read to its end. -/
theorem readCallable_declaration (h : d.Plain) (hfits : d.Fits limits) (before rest : List Char) :
    ∃ bodyStart, readCallable limits (before ++ ('(' :: (d.params ++ (')' :: d.remainder)) ++ rest))
        before.length .forbidden =
      some ⟨d.params, before.length + 1 + d.params.length + 1, d.type?.map squeeze, bodyStart,
        before.length + 1 + d.params.length + 1 + d.remainder.length⟩ := by
  -- The same text, taken apart around the parameters and behind them.
  have haround : before ++ ('(' :: (d.params ++ (')' :: d.remainder)) ++ rest) =
      (before ++ ['(']) ++ (d.params ++ ([')'] ++ (d.remainder ++ rest))) := by simp
  have hclosed : before ++ ('(' :: (d.params ++ (')' :: d.remainder)) ++ rest) =
      before ++ ('(' :: d.params ++ [')'] ++ (d.remainder ++ rest)) := by simp
  have hbehind : before ++ ('(' :: (d.params ++ (')' :: d.remainder)) ++ rest) =
      (before ++ ('(' :: d.params ++ [')'])) ++ (d.remainder ++ rest) := by simp
  have hlength : (before ++ ('(' :: d.params ++ [')'])).length =
      before.length + 1 + d.params.length + 1 := by
    simp only [List.length_append, List.length_cons, List.length_nil]
    omega
  -- Each reader takes over where the one before it stopped.
  have hclosing := closing?_balanced rfl before (d.remainder ++ rest) h.paramsBalanced
    (eq_false_of_any h.paramsQuotes) hfits.params
  have hparams := between_append (before ++ ['(']) d.params ([')'] ++ (d.remainder ++ rest))
  obtain ⟨stop, hreturn, hskip⟩ :=
    returnType_remainder h hfits (before ++ ('(' :: d.params ++ [')'])) rest
  have hopening := drop_remainder d (before ++ ('(' :: d.params ++ [')'])) rest
  have hstop := blockStop_remainder h hfits (before ++ ('(' :: d.params ++ [')'])) rest
  rw [← hclosed] at hclosing
  rw [← haround, List.length_append, List.length_singleton] at hparams
  rw [← hbehind] at hreturn hskip hopening hstop
  rw [← hskip] at hopening hstop
  rw [hlength] at hreturn hstop
  have hread := readCallable_of_brace hclosing hreturn hopening
  rw [hparams, hstop] at hread
  exact ⟨_, hread⟩

end CodeSurvey.Extract
