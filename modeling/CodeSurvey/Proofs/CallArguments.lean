import CodeSurvey.Extract.Routes
import CodeSurvey.Proofs.Modifiers
import CodeSurvey.Proofs.Phrases

/-!
# Arguments of router calls

A call that registers a handler is printed with a path in quotes, middlewares and the handler. The
scan for the closing parenthesis passes over these arguments, and they come apart at the commas
between them. The name of a middleware stands at the start of its argument; an argument that starts
with a word for functions is taken for one, also if the word is only the beginning of a name.

- `ArgumentText`: texts that may stand in an argument.
- `ArgumentText.whole`, `ArgumentText.whole_call`: such a text is read as a part of one piece.
- `MiddlewareText`, `CallText`: what is printed.
- `CallText.Plain.neutral_arguments`: the closing parenthesis is sought behind the arguments.
- `CallText.Plain.splitTopLevel_arguments`: the arguments come apart.
- `middlewareName?_text`, `middlewareNames_arguments`: the names that are reported.
-/

namespace CodeSurvey.Source

open Text Reading

/-! ## Argument texts -/

/-- A text without quotes, comments and angle brackets in which brackets are balanced, parentheses
also by themselves. -/
structure ArgumentText (text : List Char) : Prop where
  quotes : ∀ c ∈ text, isQuote c = false
  angles : '<' ∉ text ∧ '>' ∉ text
  uncommented : Uncommented text
  balanced : Balanced isOpener isCloser text
  parentheses : Balanced (· == '(') (· == ')') text

theorem argumentText_iff {text : List Char} : ArgumentText text ↔
    (text.any isQuote = false ∧ '<' ∉ text ∧ '>' ∉ text) ∧ Uncommented text ∧
      Balanced isOpener isCloser text ∧ Balanced (· == '(') (· == ')') text := by
  constructor
  · intro h
    exact ⟨⟨any_isQuote_iff.mpr h.quotes, h.angles⟩, h.uncommented, h.balanced, h.parentheses⟩
  · rintro ⟨⟨hquotes, hangles⟩, huncommented, hbalanced, hparentheses⟩
    exact ⟨any_isQuote_iff.mp hquotes, hangles, huncommented, hbalanced, hparentheses⟩

instance (text : List Char) : Decidable (ArgumentText text) :=
  decidable_of_iff _ argumentText_iff.symm

section

variable {separators text : List Char}

/-- Without angle brackets only those of expressions count. -/
theorem ArgumentText.brackets (h : ArgumentText text) (previous : Option Char)
    {front back : List Char} {c : Char} (htext : text = front ++ c :: back) :
    isTypeOpener c = isOpener c ∧ closesTopLevel (front.getLast?.or previous) c = isCloser c := by
  have hc : c ∈ text := by simp [htext]
  have hless : (c == '<') = false := beq_eq_false_iff_ne.mpr fun heq => h.angles.1 (heq ▸ hc)
  have hgreater : (c == '>') = false := beq_eq_false_iff_ne.mpr fun heq => h.angles.2 (heq ▸ hc)
  rw [isTypeOpener, closesTopLevel, hless, hgreater, Bool.or_false, Bool.false_and, Bool.or_false]
  exact ⟨rfl, rfl⟩

/-- An argument is whole if brackets enclose every separator in it. -/
theorem ArgumentText.whole (h : ArgumentText text)
    (hencloses : ∀ (place : Nat) (h : place < text.length), text[place] ∈ separators →
      (text.take place).countP isCloser < (text.take place).countP isOpener) :
    Whole separators text := by
  have hapart : ∀ c, isOpener c = true → isCloser c = false := fun _ => isCloser_of_isOpener
  refine reach_settles hapart 0 0 none h.quotes (fun _ _ _ => h.brackets none) h.uncommented
    (h.balanced.settles hapart) fun place hplace hc => ?_
  rw [Nat.zero_add]
  exact hencloses place hplace hc

/-- A name with an argument in parentheses behind it is whole, whatever separators stand in the
argument. -/
theorem ArgumentText.whole_call (h : ArgumentText text) {name : List Char}
    (hname : Whole separators name) (hmark : name.getLast? ≠ some '/')
    (hparen : '(' ∉ separators) : Whole separators (name ++ '(' :: (text ++ [')'])) := by
  -- The name is read outside of brackets, the argument one bracket deeper: there no separator can
  -- end a piece, so that nothing is asked of those in the argument.
  obtain ⟨previous, hreach⟩ := hname
  obtain rfl : previous = name.getLast? := (reach_start hreach).2
  have hopen : reach separators ⟨.code, 0, name.getLast?⟩ ['('] = some ⟨.code, 1, some '('⟩ := by
    refine reach_cons_eq_some_iff.mpr ⟨fun hcomment => ?_, fun hsplit => hparen hsplit.2.2, rfl⟩
    exact hmark hcomment.2.1
  -- A comment could start with the parenthesis and the first character of the argument.
  have huncommented : Uncommented ('(' :: text) := by
    have hmark (mark : Char) (hpart : ['/', mark] <:+: '(' :: text) : ['/', mark] <:+: text := by
      rcases List.infix_cons_iff.mp hpart with hprefix | hpart
      · exact absurd (List.cons_prefix_cons.mp hprefix).1 (by decide)
      · exact hpart
    obtain ⟨hline, hblock⟩ := h.uncommented
    exact ⟨fun hpart => hline (hmark _ hpart), fun hpart => hblock (hmark _ hpart)⟩
  obtain ⟨last, hinner⟩ : ∃ last, reach separators ⟨.code, 1, some '('⟩ text =
      some ⟨.code, 1, last⟩ := by
    have hapart : ∀ c, isOpener c = true → isCloser c = false := fun _ => isCloser_of_isOpener
    refine reach_settles hapart 1 0 (some '(') h.quotes (fun _ _ _ => h.brackets (some '('))
      huncommented (h.balanced.settles hapart) fun place _ _ => ?_
    have hcount := h.balanced.starts place
    omega
  have hclose : reach separators ⟨.code, 1, last⟩ [')'] = some ⟨.code, 0, some ')'⟩ := by
    refine reach_cons_eq_some_iff.mpr ⟨?_, fun hsplit => ?_, ?_⟩
    · rintro ⟨-, -, hmark | hmark⟩ <;> contradiction
    · exact Nat.one_ne_zero hsplit.2.1
    · simp [Reading.next, depthAfter, Literal.step, isQuote, isTypeOpener, isOpener, closesTopLevel,
        isCloser, reach]
  refine ⟨some ')', ?_⟩
  rw [← List.singleton_append, reach_append, hreach, Option.bind_some, reach_append, hopen,
    Option.bind_some, reach_append, hinner, Option.bind_some, hclose]

/-! ## Literals -/

/-- A literal is whole. -/
theorem whole_literal {quote : Char} (hquote : isQuote quote = true)
    (hseparators : quote ∉ separators) (htext : ∀ c ∈ text, c ≠ '\\' ∧ c ≠ quote) :
    Whole separators (quote :: (text ++ [quote])) := by
  -- Behind the opening quote, by induction on what stands before the closing one: the state stays
  -- the same but for the character read last.
  have hinside (previous : Option Char) :
      reach separators ⟨.inside quote, 0, previous⟩ (text ++ [quote]) =
        some ⟨.code, 0, some quote⟩ := by
    induction text generalizing previous with
    | nil =>
      refine reach_cons_eq_some_iff.mpr ⟨fun h => ?_, fun h => ?_, ?_⟩
      · exact absurd h.1 (by simp)
      · exact absurd h.1 (by simp)
      · simp [Reading.next, depthAfter, Literal.step, ne_escape_of_isQuote hquote, reach]
    | cons c text ih =>
      obtain ⟨⟨hescape, hother⟩, htext⟩ := List.forall_mem_cons.mp htext
      have hnext : Reading.next ⟨.inside quote, 0, previous⟩ c = ⟨.inside quote, 0, some c⟩ := by
        simp [Reading.next, depthAfter, Literal.step, hescape, hother]
      refine reach_cons_eq_some_iff.mpr ⟨fun h => ?_, fun h => ?_, hnext ▸ ih htext (some c)⟩
      · exact absurd h.1 (by simp)
      · exact absurd h.1 (by simp)
  have hopens : Reading.next start quote = ⟨.inside quote, 0, some quote⟩ := by
    obtain ⟨hopener, hcloser⟩ := isTypeBracket_plain (isTypeBracket_of_isQuote hquote) none
    simp [Reading.next, depthAfter, Literal.step, start, hquote, hopener, hcloser]
  refine ⟨some quote, reach_cons_eq_some_iff.mpr ⟨fun h => ?_, fun h => hseparators h.2.2, ?_⟩⟩
  · exact absurd h.2.1 (by simp [start])
  · rw [hopens]
    exact hinside (some quote)

/-! ## Texts without effect on a scan -/

variable {opens closes : Char → Bool} {first second : List Char}

theorem Neutral.append (hfirst : Neutral opens closes first)
    (hsecond : Neutral opens closes second) : Neutral opens closes (first ++ second) := by
  rw [Neutral, passOver_append, hfirst, Option.bind_some]
  exact hsecond

/-- Names and marks have no effect. -/
theorem neutral_of_plain (hplain : ∀ c ∈ text, isQuote c = false ∧ isTypeBracket c = false) :
    Neutral (· == '(') (· == ')') text := by
  refine passOver_plain (fun c hc => ?_) (fun c hc => (hplain c hc).1) fun _ _ => rfl
  have hbracket := (hplain c hc).2
  constructor <;>
  · rw [beq_eq_false_iff_ne]
    rintro rfl
    contradiction

/-- A text without effect has none in parentheses either. -/
theorem Neutral.parenthesised (h : Neutral (· == '(') (· == ')') text) :
    Neutral (· == '(') (· == ')') ('(' :: (text ++ [')'])) := by
  have hopen : passChar (· == '(') (· == ')') never '(' .code 0 = some (.code, 1) := rfl
  have hinner : passOver (· == '(') (· == ')') never .code 1 text = some (.code, 1) :=
    passOver_deeper never 0 text h
  rw [Neutral, passOver_cons, hopen, Option.bind_some, passOver_append, hinner, Option.bind_some]
  rfl

/-- Literals have no effect. -/
theorem neutral_literal {quote : Char} (hquote : isQuote quote = true)
    (htext : ∀ c ∈ text, c ≠ '\\' ∧ c ≠ quote) :
    Neutral (· == '(') (· == ')') (quote :: (text ++ [quote])) := by
  have hinside : passOver (· == '(') (· == ')') never (.inside quote) 0 (text ++ [quote]) =
      some (.code, 0) := by
    induction text with
    | nil => simp [passOver, passChar, Literal.step, ne_escape_of_isQuote hquote]
    | cons c text ih =>
      obtain ⟨⟨hescape, hother⟩, htext⟩ := List.forall_mem_cons.mp htext
      have hchar : passChar (· == '(') (· == ')') never c (.inside quote) 0 =
          some (.inside quote, 0) := by
        simp [passChar, Literal.step, hescape, hother]
      rw [List.cons_append, passOver_cons, hchar, Option.bind_some]
      exact ih htext
  have hopens : passChar (· == '(') (· == ')') never quote .code 0 = some (.inside quote, 0) := by
    have hplain := isTypeBracket_of_isQuote hquote
    have hopener : (quote == '(') = false := by
      rw [beq_eq_false_iff_ne]
      rintro rfl
      contradiction
    have hcloser : (quote == ')') = false := by
      rw [beq_eq_false_iff_ne]
      rintro rfl
      contradiction
    simp [passChar, Literal.step, hopener, hcloser, hquote, never]
  rw [Neutral, passOver_cons, hopens, Option.bind_some]
  exact hinside

end

/-! ## Printed calls -/

/-- A middleware as it is printed: its name, and the text that it is applied to, if it is. -/
structure MiddlewareText where
  name : List Char
  argument? : Option (List Char)

/-- Whether a text starts like an identifier and goes on with characters of identifiers and dots. -/
def isDottedName : List Char → Bool
  | [] => false
  | c :: rest => identifierStart.mem c && rest.all fun d => identifierRest.mem d || d == '.'

namespace MiddlewareText

/-- The middleware as it is printed. -/
def text (m : MiddlewareText) : List Char :=
  m.name ++ m.argument?.elim [] fun argument => '(' :: (argument ++ [')'])

/-- The name is dotted, and brackets are balanced in the argument. -/
structure Plain (m : MiddlewareText) : Prop where
  name : isDottedName m.name = true
  argument : ∀ argument ∈ m.argument?, ArgumentText argument

instance (m : MiddlewareText) : Decidable m.Plain :=
  decidable_of_iff
    (isDottedName m.name = true ∧ ∀ argument ∈ m.argument?, ArgumentText argument)
    ⟨fun h => ⟨h.1, h.2⟩, fun h => ⟨h.name, h.argument⟩⟩

/-- Behind the name nothing stands or a parenthesis. -/
theorem exists_text_eq (m : MiddlewareText) :
    ∃ rest, (rest = [] ∨ rest.head? = some '(') ∧ m.text = m.name ++ rest := by
  rw [text]
  cases m.argument? with
  | none => exact ⟨[], .inl rfl, rfl⟩
  | some argument => exact ⟨_, .inr rfl, rfl⟩

variable {m : MiddlewareText}

/-- No character of a dotted name has a meaning in a list. -/
theorem isPlain_of_isDottedName {name : List Char} (h : isDottedName name = true) :
    name ≠ [] ∧ ∀ c ∈ name, isPlain c = true ∧ c ≠ ',' := by
  have hrest (c : Char) (hc : identifierRest.mem c = true) : isPlain c = true ∧ c ≠ ',' := by
    obtain ⟨hplain, hmarks⟩ := isPlain_of_identifierRest hc
    exact ⟨hplain, fun hcomma => hmarks (hcomma ▸ List.mem_cons_self)⟩
  cases name with
  | nil => exact absurd h Bool.false_ne_true
  | cons c name =>
    have hstarts : identifierStart.within identifierRest = true := by decide +kernel
    simp only [isDottedName, Bool.and_eq_true, List.all_eq_true, Bool.or_eq_true, beq_iff_eq] at h
    refine ⟨List.cons_ne_nil c name, List.forall_mem_cons.mpr
      ⟨hrest c (CharSet.mem_of_within hstarts h.1), fun d hd => ?_⟩⟩
    rcases h.2 d hd with hd | rfl
    · exact hrest d hd
    · decide

/-- A middleware is whole. -/
theorem Plain.whole (h : m.Plain) : Whole [','] m.text := by
  obtain ⟨hne, hplain⟩ := isPlain_of_isDottedName h.name
  have hname : Whole [','] m.name :=
    (phrase_of_plain hne (fun c hc => (hplain c hc).1)
      fun c hc => by simpa using (hplain c hc).2).whole
  have hmark : m.name.getLast? ≠ some '/' := by
    intro hlast
    exact absurd (hplain '/' (List.mem_of_getLast? hlast)).1 (by decide)
  rw [text]
  cases hargument : m.argument? with
  | none => exact (List.append_nil m.name).symm ▸ hname
  | some argument => exact (h.argument argument hargument).whole_call hname hmark (by decide)

/-- A middleware has no effect on the scan for a parenthesis. -/
theorem Plain.neutral (h : m.Plain) : Neutral (· == '(') (· == ')') m.text := by
  have hname : Neutral (· == '(') (· == ')') m.name := by
    refine neutral_of_plain fun c hc => ?_
    have hplain := ((isPlain_of_isDottedName h.name).2 c hc).1
    simp only [isPlain, Bool.and_eq_true, Bool.not_eq_true'] at hplain
    exact ⟨hplain.1.1.2, hplain.1.2⟩
  rw [text]
  cases hargument : m.argument? with
  | none => exact (List.append_nil m.name).symm ▸ hname
  | some argument =>
    have hbalanced := h.argument argument hargument
    have hneutral := hbalanced.parentheses.neutral (fun c hc => by simp_all) hbalanced.quotes
    exact hname.append hneutral.parenthesised

/-- No quote stands in a middleware. -/
theorem Plain.quotes (h : m.Plain) : ∀ c ∈ m.text, isQuote c = false := by
  intro c hc
  rw [text] at hc
  rcases List.mem_append.mp hc with hc | hc
  · have hplain := ((isPlain_of_isDottedName h.name).2 c hc).1
    simp only [isPlain, Bool.and_eq_true, Bool.not_eq_true'] at hplain
    exact hplain.1.1.2
  · cases hargument : m.argument? with
    | none =>
      rw [hargument] at hc
      contradiction
    | some argument =>
      rw [hargument, Option.elim, List.mem_cons, List.mem_append, List.mem_singleton] at hc
      rcases hc with rfl | hc | rfl
      · rfl
      · exact (h.argument argument hargument).quotes c hc
      · rfl

/-- No blank stands at either end of a middleware. -/
theorem Plain.trim_indented (h : m.Plain) : trim (' ' :: m.text) = m.text ∧ m.text ≠ [] := by
  obtain ⟨hne, hplain⟩ := isPlain_of_isDottedName h.name
  have hinked (c : Char) (hc : c ∈ m.name) : isSpace c = false :=
    isSpace_of_isPlain (hplain c hc).1
  have hstarts : ∀ c, m.text.head? = some c → isSpace c = false := by
    obtain ⟨c, rest, hname⟩ := List.exists_cons_of_ne_nil hne
    intro d hd
    rw [text, hname] at hd
    exact Option.some.inj hd ▸ hinked c (hname ▸ List.mem_cons_self)
  have hends : ∃ c, m.text.getLast? = some c ∧ isSpace c = false := by
    rw [text]
    cases m.argument? with
    | none =>
      have hlast := List.getLast?_eq_some_getLast hne
      exact ⟨_, by rw [Option.elim, List.append_nil, hlast], hinked _ (List.getLast_mem hne)⟩
    | some argument =>
      refine ⟨')', ?_, by decide⟩
      rw [Option.elim, ← List.cons_append, ← List.append_assoc]
      exact List.getLast?_concat
  obtain ⟨c, hlast, hc⟩ := hends
  refine ⟨?_, fun hnil => hne (List.append_eq_nil_iff.mp hnil).1⟩
  rw [trim_cons_blank (by decide), trim_of_inked_start hstarts, trimEnd_of_inked hlast hc]

end MiddlewareText

/-- The methods for which routers register handlers. -/
def routerMethods : List String :=
  ["get", "post", "put", "patch", "delete", "all", "options", "head"]

/-- A call that registers a handler as it is printed. -/
structure CallText where
  method : String
  path : List Char
  middlewares : List MiddlewareText
  handler : List Char

namespace CallText

/-- The arguments behind the path. -/
def chunks (c : CallText) : List (List Char) :=
  c.middlewares.map MiddlewareText.text ++ [c.handler]

/-- What stands behind the path, each argument behind a comma and a blank. -/
def others (c : CallText) : List Char :=
  c.chunks.flatMap fun chunk => ',' :: ' ' :: chunk

/-- The path in quotes, and the other arguments. -/
def arguments (c : CallText) : List Char :=
  '\'' :: (c.path ++ ['\'']) ++ c.others

/-- The call as it is printed. -/
def text (c : CallText) : List Char :=
  "app.".toList ++ (c.method.toList ++ ('(' :: c.arguments ++ [')']))

/-- The method is known, the path starts with a slash and stands on one line without quotes and
backslashes, and the handler is an argument without commas outside brackets. -/
structure Plain (c : CallText) : Prop where
  method : c.method ∈ routerMethods
  path : c.path.head? = some '/'
  literal : ∀ d ∈ c.path, isQuote d = false ∧ d ≠ '\\' ∧ d ≠ '\n'
  middlewares : ∀ m ∈ c.middlewares, m.Plain
  handler : ArgumentText c.handler
  inked : isBlank c.handler = false
  encloses : ∀ (place : Nat) (h : place < c.handler.length), c.handler[place] ∈ [','] →
    (c.handler.take place).countP isCloser < (c.handler.take place).countP isOpener

theorem plain_iff {c : CallText} : c.Plain ↔
    (c.method ∈ routerMethods ∧ c.path.head? = some '/' ∧
      (c.path.all fun d => !isQuote d && d != '\\' && d != '\n') = true) ∧
    (∀ m ∈ c.middlewares, m.Plain) ∧ ArgumentText c.handler ∧ isBlank c.handler = false ∧
      ∀ (place : Nat) (h : place < c.handler.length), c.handler[place] ∈ [','] →
        (c.handler.take place).countP isCloser < (c.handler.take place).countP isOpener := by
  have hliteral : (c.path.all fun d => !isQuote d && d != '\\' && d != '\n') = true ↔
      ∀ d ∈ c.path, isQuote d = false ∧ d ≠ '\\' ∧ d ≠ '\n' := by
    simp [and_assoc]
  constructor
  · intro h
    exact ⟨⟨h.method, h.path, hliteral.mpr h.literal⟩, h.middlewares, h.handler, h.inked,
      h.encloses⟩
  · rintro ⟨⟨hmethod, hpath, hall⟩, hmiddlewares, hhandler, hinked, hencloses⟩
    exact ⟨hmethod, hpath, hliteral.mp hall, hmiddlewares, hhandler, hinked, hencloses⟩

instance (c : CallText) : Decidable c.Plain :=
  decidable_of_iff _ plain_iff.symm

variable {c : CallText}

theorem Plain.literal_plain (h : c.Plain) : ∀ d ∈ c.path, d ≠ '\\' ∧ d ≠ '\'' := by
  intro d hd
  obtain ⟨hquote, hescape, -⟩ := h.literal d hd
  refine ⟨hescape, ?_⟩
  rintro rfl
  contradiction

/-- The arguments behind the path are the middlewares and the handler. -/
theorem forall_mem_chunks {p : List Char → Prop} (hmiddlewares : ∀ m ∈ c.middlewares, p m.text)
    (hhandler : p c.handler) : ∀ chunk ∈ c.chunks, p chunk :=
  List.forall_mem_append.mpr
    ⟨List.forall_mem_map.mpr hmiddlewares, List.forall_mem_singleton.mpr hhandler⟩

/-- No quote stands behind the path. -/
theorem Plain.quotes (h : c.Plain) : ∀ d ∈ c.others, isQuote d = false := by
  have hchunk : ∀ chunk ∈ c.chunks, ∀ d ∈ chunk, isQuote d = false :=
    forall_mem_chunks (fun m hm => (h.middlewares m hm).quotes) h.handler.quotes
  intro d hd
  obtain ⟨chunk, hmem, hd⟩ := List.mem_flatMap.mp hd
  rw [List.mem_cons, List.mem_cons] at hd
  rcases hd with rfl | rfl | hd
  · rfl
  · rfl
  · exact hchunk chunk hmem d hd

/-- **Parentheses.** The scan for the closing parenthesis passes over the arguments. -/
theorem Plain.neutral_arguments (h : c.Plain) : Neutral (· == '(') (· == ')') c.arguments := by
  have hhandler : Neutral (· == '(') (· == ')') c.handler :=
    h.handler.parentheses.neutral (fun d hd => by simp_all) h.handler.quotes
  have hchunk : ∀ chunk ∈ c.chunks, Neutral (· == '(') (· == ')') chunk :=
    forall_mem_chunks (fun m hm => (h.middlewares m hm).neutral) hhandler
  have hmarks : Neutral (· == '(') (· == ')') [',', ' '] := by decide
  have hchunks : ∀ chunks : List (List Char),
      (∀ chunk ∈ chunks, Neutral (· == '(') (· == ')') chunk) →
        Neutral (· == '(') (· == ')') (chunks.flatMap fun chunk => ',' :: ' ' :: chunk) := by
    intro chunks
    induction chunks with
    | nil => exact fun _ => rfl
    | cons chunk chunks ih =>
      intro hall
      obtain ⟨hfirst, hothers⟩ := List.forall_mem_cons.mp hall
      rw [List.flatMap_cons]
      exact (hmarks.append hfirst).append (ih hothers)
  exact (neutral_literal rfl h.literal_plain).append (hchunks c.chunks hchunk)

/-- Every argument is read as a part of one piece. -/
theorem Plain.whole_chunks (h : c.Plain) : ∀ chunk ∈ c.chunks, Whole [','] chunk :=
  forall_mem_chunks (fun m hm => (h.middlewares m hm).whole) (h.handler.whole h.encloses)

/-- Of the arguments only the handler may have blanks around it. -/
theorem Plain.trim_chunks (h : c.Plain) :
    c.chunks.map (fun chunk => trim (' ' :: chunk)) =
      c.middlewares.map MiddlewareText.text ++ [trim c.handler] := by
  rw [chunks, List.map_append, List.map_map, List.map_singleton]
  refine congrArg₂ (· ++ ·) ?_ (congrArg (fun text => [text]) ?_)
  · exact List.map_congr_left fun m hm => (h.middlewares m hm).trim_indented.1
  · exact trim_cons_blank (by decide) c.handler

/-- No argument is lost as blank. -/
theorem Plain.trim_chunks_ne_nil (h : c.Plain) :
    ∀ chunk ∈ c.middlewares.map MiddlewareText.text ++ [trim c.handler], chunk ≠ [] := by
  have hhandler : trim c.handler ≠ [] := by
    have hinked := h.inked
    rw [isBlank, List.all_eq_false] at hinked
    obtain ⟨d, hd, hinked⟩ := hinked
    have hmem : d ∈ ink [] (trim c.handler) := by
      rw [ink_trim]
      exact List.mem_filter.mpr ⟨hd, by simpa using hinked⟩
    intro hnil
    rw [hnil] at hmem
    contradiction
  exact List.forall_mem_append.mpr
    ⟨List.forall_mem_map.mpr fun m hm => (h.middlewares m hm).trim_indented.2,
      List.forall_mem_singleton.mpr hhandler⟩

/-- A text in quotes is trimmed. -/
theorem trim_quoted (path : List Char) :
    trim ('\'' :: (path ++ ['\''])) = '\'' :: (path ++ ['\'']) := by
  have hlast : ('\'' :: (path ++ ['\''])).getLast? = some '\'' := by
    rw [← List.cons_append]
    exact List.getLast?_concat
  have hfirst (d : Char) (hd : ('\'' :: (path ++ ['\''])).head? = some d) :
      isSpace d = false := by
    obtain rfl := Option.some.inj hd
    decide
  rw [trim_of_inked_start hfirst, trimEnd_of_inked hlast (by decide)]

/-- **Arguments.** The arguments come apart at the commas between them. -/
theorem Plain.splitTopLevel_arguments (h : c.Plain) :
    splitTopLevel c.arguments [','] =
      ('\'' :: (c.path ++ ['\''])) ::
        (c.middlewares.map MiddlewareText.text ++ [trim c.handler]) := by
  let others := c.chunks.map fun chunk => (',', ' ' :: chunk)
  have harguments : c.arguments =
      '\'' :: (c.path ++ ['\'']) ++ others.flatMap fun other => other.1 :: other.2 := by
    rw [arguments, CallText.others, List.flatMap_map]
  have hliteral : Whole [','] ('\'' :: (c.path ++ ['\''])) :=
    whole_literal rfl (by decide) h.literal_plain
  have hothers : ∀ other ∈ others, other.1 ∈ [','] ∧ Whole [','] other.2 := by
    refine List.forall_mem_map.mpr fun chunk hchunk => ⟨List.mem_singleton_self _, ?_⟩
    exact Whole.cons_blank rfl (by decide) (h.whole_chunks chunk hchunk)
  have hpieces := pieces_list (List.forall_mem_singleton.mpr rfl) hliteral hothers
  have htrim : others.map (fun other => trim other.2) =
      c.middlewares.map MiddlewareText.text ++ [trim c.handler] := by
    rw [List.map_map]
    exact h.trim_chunks
  rw [splitTopLevel, harguments, hpieces, List.map_cons, trim_quoted, List.map_map]
  show List.filter _ (_ :: others.map fun other => trim other.2) = _
  rw [htrim, List.filter_eq_self]
  intro chunk hchunk
  rw [Bool.not_eq_true', List.isEmpty_eq_false_iff]
  rcases List.mem_cons.mp hchunk with rfl | hchunk
  · exact List.cons_ne_nil _ _
  · exact h.trim_chunks_ne_nil chunk hchunk

end CallText

end CodeSurvey.Source

namespace CodeSurvey.Extract

open Text Source Pattern MiddlewareText

/-! ## Names -/

/-- The words with which a function starts. -/
def functionWords : List String :=
  ["async", "function"]

/-- Whether a text starts like a function: the name of a middleware may do so too. -/
def startsFunction (text : List Char) : Bool :=
  functionWords.any fun word => startsWith text word.toList

/-- A middleware starts like a function only if its name does. -/
theorem startsFunction_text {m : MiddlewareText} (h : m.Plain) :
    (["(", "async", "function"].any fun word => startsWith m.text word.toList) =
      startsFunction m.name := by
  obtain ⟨rest, hrest, htext⟩ := exists_text_eq m
  -- A word without a parenthesis cannot reach from the name into what stands behind it.
  have hword (word : String) (hword : '(' ∉ word.toList) :
      startsWith m.text word.toList = startsWith m.name word.toList := by
    rw [Bool.eq_iff_iff, startsWith, startsWith, List.isPrefixOf_iff_prefix,
      List.isPrefixOf_iff_prefix, htext]
    refine isPrefix_append_iff fun d hd => ?_
    rcases hrest with rfl | hrest
    · contradiction
    · exact Option.some.inj (hrest.symm.trans hd) ▸ hword
  have hparen : startsWith m.text "(".toList = false := by
    obtain ⟨hne, hplain⟩ := isPlain_of_isDottedName h.name
    obtain ⟨c, others, hparts⟩ := List.exists_cons_of_ne_nil hne
    rw [htext, hparts, ← Bool.not_eq_true, startsWith, List.isPrefixOf_iff_prefix]
    intro hprefix
    obtain rfl : '(' = c := (List.cons_prefix_cons.mp hprefix).1
    exact absurd (hplain '(' (hparts ▸ List.mem_cons_self)).1 (by decide)
  simp only [startsFunction, functionWords, List.any_cons, List.any_nil, hparen, Bool.false_or,
    hword "async" (by decide), hword "function" (by decide)]

/-- A dotted name is read up to its end if no character of a name stands there. -/
theorem middlewareName_prefers {name rest : List Char} (hname : isDottedName name = true)
    (hrest : rest = [] ∨ rest.head? = some '(') : middlewareName.Prefers name rest 0 [] := by
  cases name with
  | nil => exact absurd hname Bool.false_ne_true
  | cons c others =>
    rw [isDottedName, Bool.and_eq_true, List.all_eq_true] at hname
    obtain ⟨hstart, hothers⟩ := hname
    have hset : ∀ d ∈ others, (CharSet.union .word (.ofString "$.")).mem d = true := by
      intro d hd
      have hmem := hothers d hd
      simp only [identifierRest, CharSet.mem, Bool.or_eq_true, beq_iff_eq] at hmem
      show (isWord d || ('$' == d || '.' == d)) = true
      rcases hmem with (hword | rfl) | rfl
      · rw [hword, Bool.true_or]
      · simp
      · simp
    have hends : rest.head?.any (CharSet.union .word (.ofString "$.")).mem = false := by
      rcases hrest with rfl | hrest
      · rfl
      · rw [hrest]
        decide +kernel
    exact (takes_one _ 0 hstart).prefers.pass (prefers_many _ hends hset)

/-- **Names of middlewares.** A middleware is reported by its name unless that starts like a
function. -/
theorem middlewareName?_text {m : MiddlewareText} (h : m.Plain) :
    middlewareName? m.text =
      if startsFunction m.name then none else some (String.ofList m.name) := by
  obtain ⟨rest, hrest, htext⟩ := exists_text_eq m
  have hmatch := matchStart?_prefers (middlewareName_prefers h.name hrest)
  rw [← htext] at hmatch
  have hkept : (Match.mk m.text 0 m.name.length []).text = m.name := by
    rw [Match.text, htext, between, List.drop_zero, Nat.sub_zero, List.take_left]
  rw [middlewareName?, startsFunction_text h, hmatch, Option.map_some, hkept]

/-- **Middlewares.** Of the arguments of a call the names of the middlewares are reported that do
not start like a function, in their order. -/
theorem middlewareNames_arguments {c : CallText} (h : c.Plain) :
    middlewareNames (splitTopLevel c.arguments [',']) =
      ((c.middlewares.map (·.name)).filter (!startsFunction ·)).map String.ofList := by
  have hmiddle : ((splitTopLevel c.arguments [',']).dropLast.drop 1) =
      c.middlewares.map MiddlewareText.text := by
    rw [h.splitTopLevel_arguments, ← List.cons_append, List.dropLast_concat]
    rfl
  rw [middlewareNames, hmiddle, List.filterMap_map, ← List.filterMap_eq_map, List.filterMap_filter,
    List.filterMap_map]
  refine List.filterMap_congr fun m hm => ?_
  rw [Function.comp_apply, middlewareName?_text (h.middlewares m hm)]
  cases hfunction : startsFunction m.name <;> simp [hfunction]

end CodeSurvey.Extract
