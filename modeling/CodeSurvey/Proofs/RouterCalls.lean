import CodeSurvey.Proofs.CallArguments
import CodeSurvey.Proofs.LineFeeds
import CodeSurvey.Proofs.LineSpans
import CodeSurvey.Proofs.Places

/-!
# Router calls

A printed call that starts a line is found where it stands, whatever the file holds before and
behind it: no match that begins earlier runs over the start of its line, and none begins in its
arguments.

- `exists_callParts`: what a match is made up of.
- `matchHere?_routerCall`: the match of a printed call.
- `stop_le_of_newline`, `lt_start_of_quotes`: where the matches before and behind it end and begin.
- `callsIn_text`: no other match begins in a printed call.
- `routerCall_printed`: the route of a printed call.
- `middleware_skipped`: a middleware that is not reported.
-/

namespace CodeSurvey.Extract

open Text Source Pattern

/-! ## Parts of a match -/

/-- The router and the method. -/
def callStart : Pattern :=
  notAfter identifierRest
    ++ capture "router" (alts [lit "app", lit "router", lit "server", identifier ++ lit "Router"])
    ++ lit "." ++ capture "method" (words routerMethods)

/-- What a call starts with: the router with the method, a parenthesis with blanks around it
perhaps, and a literal on one line. -/
structure CallParts (text name blanks more : List Char) (quote : Char) (path : List Char) :
    Prop where
  parts : text = name ++ (blanks ++ '(' :: (more ++ quote :: (path ++ [quote])))
  name : ∀ c ∈ name, c ≠ '\n' ∧ c ≠ ')'
  blanks : ∀ c ∈ blanks, isSpace c = true
  more : ∀ c ∈ more, isSpace c = true
  quote : isQuote quote = true
  path : '\n' ∉ path

/-- **Parts.** A match is made up of these parts. -/
theorem exists_callParts {text : List Char} {m : Match}
    (h : routerCallPattern.Matches text text m) :
    ∃ name blanks more quote path,
      CallParts (between text m.start m.stop) name blanks more quote path := by
  obtain ⟨s, t, hwithin, -, hreads, rfl⟩ := h.exists_reads
  obtain ⟨u, ⟨v, ⟨w, ⟨x, ⟨y, ⟨z, hname, hblanks⟩, hparen⟩, hmore⟩,
    ⟨_, ⟨quote, rest, hafter, hquote, rfl⟩, rfl⟩⟩, ⟨p, hpath, rfl⟩⟩, hagain⟩ := hreads
  have hname : callStart.Reads s z := hname
  obtain ⟨name, hpname⟩ := hname.exists_passes
  obtain ⟨blanks, hpblanks⟩ := hblanks.exists_passes
  obtain ⟨more, hpmore⟩ := hmore.exists_passes
  obtain ⟨path, hppath⟩ := hpath.exists_passes
  have hpquote := (Passes.pass hafter).keep
    (⟨"quote", w.offset, (w.pass quote rest).offset⟩ :: (w.pass quote rest).kept)
  have hfront := hpname.trans (hpblanks.trans ((passes_of_reads_lit hparen).trans hpmore))
  -- The quote at the end is the one that was kept, so it is read once more.
  have hlast : Passes p [quote] t := by
    obtain ⟨again, hagain, hread⟩ := hagain
    have hspan : p.span? "quote" = some ⟨"quote", w.offset, w.offset + 1⟩ :=
      span?_of_reads (by decide) (by decide) hpath
    have hplace := (hwithin.passes hfront).passes (hpquote.trans hppath)
    have hkept : (State.mk p.before p.after p.offset (⟨"path", w.offset + 1, p.offset⟩ ::
        p.kept)).text? "quote" = some [quote] := by
      have hsame : (State.mk p.before p.after p.offset (⟨"path", w.offset + 1, p.offset⟩ ::
          p.kept)).span? "quote" = p.span? "quote" := rfl
      rw [State.text?, hsame, hspan, Option.map_some, ← hplace.parts]
      exact congrArg some ((hwithin.passes hfront).between (Passes.pass hafter))
    obtain rfl : [quote] = again := Option.some.inj (hkept.symm.trans hagain)
    obtain ⟨hafter, hbefore, hoffset⟩ := passes_of_read?_exact hread
    exact ⟨hafter, hbefore, hoffset⟩
  refine ⟨name, blanks, more, quote, path, ?_, ?_, ?_, ?_, ?_, ?_⟩
  · have hall := hfront.trans (hpquote.trans (hppath.trans hlast))
    have hparts := hwithin.between hall
    rw [List.append_assoc, List.append_assoc, List.append_assoc] at hparts
    exact hparts
  · have hline : callStart.throughout (·.within (.compl (.char '\n'))) = true := by decide +kernel
    have hcloser : callStart.throughout (·.within (.compl (.char ')'))) = true := by decide +kernel
    intro c hc
    have hc' := mem_of_throughout hline hname hpname hc
    have hc'' := mem_of_throughout hcloser hname hpname hc
    simp only [CharSet.mem, Bool.not_eq_true', beq_eq_false_iff_ne] at hc' hc''
    exact ⟨Ne.symm hc', Ne.symm hc''⟩
  · have hspaces : spaces.throughout (·.within .space) = true := by decide
    exact fun c hc => mem_of_throughout hspaces hblanks hpblanks hc
  · have hspaces : spaces.throughout (·.within .space) = true := by decide
    exact fun c hc => mem_of_throughout hspaces hmore hpmore hc
  · have hmem : ('\'' == quote || ('"' == quote || '\x60' == quote)) = true := hquote
    simp only [Bool.or_eq_true, beq_iff_eq] at hmem
    rcases hmem with rfl | rfl | rfl <;> rfl
  · intro hfeed
    have hline : (oneOf "/*" ++ many (noneOf "'\"\x60\n")).throughout
      (·.within (.compl (.char '\n'))) = true := by decide +kernel
    have hmem := mem_of_throughout hline hpath hppath hfeed
    contradiction

/-! ## Where matches end and begin -/

section

variable {text name blanks more path : List Char} {quote : Char}

/-- A line feed among blanks is followed by a blank or by what follows them. -/
theorem isSpace_or_of_blanks {rest back : List Char} {c d : Char} (hd : d ≠ '\n') :
    ∀ {blanks front : List Char}, (∀ b ∈ blanks, isSpace b = true) →
      blanks ++ d :: rest = front ++ '\n' :: c :: back →
        (isSpace c = true ∨ c = d) ∨ ∃ others, rest = others ++ '\n' :: c :: back := by
  intro blanks
  induction blanks with
  | nil =>
    intro front _ h
    cases front with
    | nil => exact absurd (List.cons.inj h).1 hd
    | cons b front => exact .inr ⟨front, (List.cons.inj h).2⟩
  | cons b blanks ih =>
    intro front hblanks h
    obtain ⟨-, hblanks⟩ := List.forall_mem_cons.mp hblanks
    cases front with
    | nil =>
      obtain ⟨-, h⟩ := List.cons.inj h
      cases blanks with
      | nil => exact .inl (.inr (List.cons.inj h).1.symm)
      | cons b blanks =>
        exact .inl (.inl ((List.cons.inj h).1 ▸ hblanks b List.mem_cons_self))
    | cons e front => exact ih hblanks (List.cons.inj h).2

/-- **Lines.** A line of a match, but for the first one, begins with a blank, a parenthesis or a
quote. -/
theorem CallParts.behind_newline (h : CallParts text name blanks more quote path)
    {front back : List Char} {c : Char} (htext : text = front ++ '\n' :: c :: back) :
    isSpace c = true ∨ c = '(' ∨ isQuote c = true := by
  have hname : '\n' ∉ name := fun hmem => (h.name _ hmem).1 rfl
  obtain ⟨others, hbehind⟩ := exists_append_of_notMem hname (h.parts.symm.trans htext)
  rcases isSpace_or_of_blanks (by decide) h.blanks hbehind with hc | ⟨others, hmore⟩
  · exact hc.imp_right .inl
  · have hquote : quote ≠ '\n' := by
      rintro rfl
      exact absurd h.quote (by decide)
    rcases isSpace_or_of_blanks hquote h.more hmore with (hc | rfl) | ⟨others, hpath⟩
    · exact .inl hc
    · exact .inr (.inr h.quote)
    · have hmem : '\n' ∈ path ++ [quote] := by simp [hpath]
      rcases List.mem_append.mp hmem with hmem | hmem
      · exact absurd hmem h.path
      · exact absurd (List.mem_singleton.mp hmem).symm hquote

/-- **Arguments.** No match begins in a text without quotes behind which a parenthesis closes. -/
theorem CallParts.not_isPrefix (h : CallParts text name blanks more quote path)
    {front back : List Char} (hfront : ∀ c ∈ front, isQuote c = false) :
    ¬ text <+: front ++ ')' :: back := by
  rintro ⟨rest, hrest⟩
  have hclose : ')' ∉ name ++ (blanks ++ '(' :: more) := by
    have hblank (blanks : List Char) (hblanks : ∀ c ∈ blanks, isSpace c = true) : ')' ∉ blanks :=
      fun hmem => absurd (hblanks _ hmem) (by decide)
    simp only [List.mem_append, List.mem_cons, not_or]
    exact ⟨fun hmem => (h.name _ hmem).2 rfl, hblank blanks h.blanks, by decide,
      hblank more h.more⟩
  have hparts : (name ++ (blanks ++ '(' :: more)) ++ (quote :: (path ++ [quote] ++ rest)) =
      front ++ ')' :: back := by
    rw [← hrest, h.parts]
    simp only [List.append_assoc, List.cons_append]
  have hother : quote ≠ ')' := by
    rintro rfl
    exact absurd h.quote (by decide)
  -- The quote would stand in front of the parenthesis, or the parenthesis in front of the quote.
  rcases List.append_eq_append_iff.mp hparts with
    ⟨others, hsplit, hquote⟩ | ⟨others, hsplit, hquote⟩
  · cases others with
    | nil => exact hother (List.cons.inj hquote).1
    | cons d others =>
      obtain ⟨rfl, -⟩ := List.cons.inj hquote
      have hplain := hfront quote (by simp [hsplit])
      rw [h.quote] at hplain
      contradiction
  · cases others with
    | nil => exact hother (List.cons.inj hquote).1.symm
    | cons d others =>
      obtain ⟨rfl, -⟩ := List.cons.inj hquote
      exact hclose (by simp [hsplit])

end

/-! ## The match of a printed call -/

/-- What is matched of a printed call: all up to the end of the path's literal. -/
def callHead (method path : List Char) : List Char :=
  "app".toList ++ (".".toList ++ (method ++ ("(".toList ++ (['\''] ++ path))))

/-- Where the parts of a call are kept that begins at an offset. -/
def callCaptures (offset : Nat) (method path : List Char) : List Capture :=
  [⟨"path", offset + 4 + method.length + 2, offset + 4 + method.length + 2 + path.length⟩,
    ⟨"quote", offset + 4 + method.length + 1, offset + 4 + method.length + 2⟩,
    ⟨"method", offset + 4, offset + 4 + method.length⟩, ⟨"router", offset, offset + 3⟩]

/-- Methods are made up of letters, and none starts another. -/
theorem routerMethods_apart {method : String} (h : method ∈ routerMethods) {rest : List Char}
    (hrest : rest.head? = some '(') :
    ∀ other ∈ routerMethods, other ≠ method → ¬ other.toList <+: method.toList ++ rest := by
  have hall : ∀ method ∈ routerMethods, '(' ∉ method.toList ∧ ∀ other ∈ routerMethods,
      other ≠ method → ¬ other.toList <+: method.toList := by decide
  intro other hother hne hprefix
  refine (hall method h).2 other hother hne ((isPrefix_append_iff fun c hc => ?_).mp hprefix)
  exact Option.some.inj (hrest.symm.trans hc) ▸ (hall other hother).1

/-- The pattern but for the quote at its end. -/
def callFront : Pattern :=
  capture "router" (alts [lit "app", lit "router", lit "server", identifier ++ lit "Router"])
    ++ (lit "." ++ (capture "method" (words routerMethods) ++ (spaces ++ (lit "(" ++ (spaces
    ++ (capture "quote" (oneOf "'\"\x60")
      ++ capture "path" (oneOf "/*" ++ many (noneOf "'\"\x60\n"))))))))

/-- A character that was kept is read again where it comes next. -/
theorem run_again {s : State} {key : String} {c : Char} {rest : List Char}
    (hkept : s.text? key = some [c]) (hafter : s.after = c :: rest) (goal : Goal) :
    (again false key).run s goal = goal (s.pass c rest) := by
  rw [run, hkept]
  simp [State.read?, hafter, State.pass]

/-- The pattern looks behind, reads its parts, and then the quote in front of the path again. -/
theorem run_routerCallPattern (s : State) (goal : Goal) :
    routerCallPattern.run s goal = (notAfter identifierRest).run s fun t =>
      callFront.run t fun u => (again false "quote").run u goal :=
  rfl

/-- A printed call is read up to the quote behind its path. -/
theorem prefers_callFront {method : String} {path : List Char} (hmethod : method ∈ routerMethods)
    (hstart : path.head? = some '/')
    (hpath : ∀ c ∈ path, isQuote c = false ∧ c ≠ '\\' ∧ c ≠ '\n') (rest : List Char)
    (offset : Nat) :
    callFront.Prefers (callHead method.toList path) ('\'' :: rest) offset
      (callCaptures offset method.toList path) := by
  obtain ⟨others, rfl⟩ := List.head?_eq_some_iff.mp hstart
  -- The path goes on up to a quote of any kind or the end of the line.
  have hset : ∀ c ∈ others, (CharSet.compl (.ofString "'\"\x60\n")).mem c = true := by
    intro c hc
    obtain ⟨hquote, -, hline⟩ := hpath c (List.mem_cons_of_mem _ hc)
    show (!('\'' == c || ('"' == c || ('\x60' == c || '\n' == c)))) = true
    simp only [isQuote, Bool.or_eq_false_iff, beq_eq_false_iff_ne] at hquote
    simp [Ne.symm hquote.1.1, Ne.symm hquote.1.2, Ne.symm hquote.2, Ne.symm hline]
  have hlast : (oneOf "/*" ++ many (noneOf "'\"\x60\n")).Prefers ('/' :: others) ('\'' :: rest)
      (offset + 4 + method.toList.length + 2) [] :=
    (takes_one _ _ (by decide)).prefers.pass
      (prefers_many _ (by rw [List.head?_cons, Option.any_some]; decide) hset)
  have hquote : (oneOf "'\"\x60").Prefers ['\''] (('/' :: others) ++ '\'' :: rest)
      (offset + 4 + method.toList.length + 1) [] := (takes_one _ _ (by decide)).prefers
  have hword : (words routerMethods).Prefers method.toList
      ("(".toList ++ (['\''] ++ ('/' :: others)) ++ '\'' :: rest) (offset + 4) [] :=
    prefers_words hmethod (routerMethods_apart hmethod rfl) _
  have hrouter := ((takes_lit "app" (".".toList ++ (method.toList ++ ("(".toList ++
    (['\''] ++ ('/' :: others)))) ++ '\'' :: rest) offset).prefers.alts
      [lit "router", lit "server", identifier ++ lit "Router"]).capture "router"
  have hliteral := (hquote.capture "quote").seq (hlast.capture "path")
  have hparen := (takes_lit "(" ((['\''] ++ ('/' :: others)) ++ '\'' :: rest)
    (offset + 4 + method.toList.length)).prefers.pass
      (Takes.skip (takes_many_nil _ rfl : spaces.Takes [] _ _ []) hliteral)
  have hmethod := (hword.capture "method").seq
    (Takes.skip (takes_many_nil _ rfl : spaces.Takes [] _ _ []) hparen)
  exact hrouter.seq ((takes_lit "." _ _).prefers.pass hmethod)

/-- **Matches.** A printed call that starts a line is matched up to the end of its path. -/
theorem matchHere?_routerCall {before : List Char} {method : String} {path : List Char}
    (hline : startsLine before.reverse = true) (hmethod : method ∈ routerMethods)
    (hstart : path.head? = some '/')
    (hpath : ∀ c ∈ path, isQuote c = false ∧ c ≠ '\\' ∧ c ≠ '\n') (rest : List Char)
    (subject : List Char) :
    routerCallPattern.matchHere? subject
        ⟨before.reverse, callHead method.toList path ++ '\'' :: rest, before.length, []⟩ false =
      some ⟨subject, before.length, before.length + (callHead method.toList path).length + 1,
        callCaptures before.length method.toList path⟩ := by
  -- At the start of a line nothing stands in front of the call that could be a part of its name.
  have hbehind (text : List Char) (goal : Goal) :
      (notAfter identifierRest).run ⟨before.reverse, text, before.length, []⟩ goal =
        goal ⟨before.reverse, text, before.length, []⟩ := by
    cases hbefore : before.reverse with
    | nil => rfl
    | cons c others =>
      rw [hbefore, startsLine_cons, beq_iff_eq] at hline
      subst hline
      rfl
  let behind : State := ⟨(callHead method.toList path).reverse ++ before.reverse, '\'' :: rest,
    before.length + (callHead method.toList path).length,
    callCaptures before.length method.toList path ++ []⟩
  -- The quote behind the path is the one in front of it.
  have hquote : behind.text? "quote" = some ['\''] := by
    have hparts : behind.before.reverse ++ behind.after =
        (before ++ ("app.".toList ++ (method.toList ++ "(".toList))) ++
          (['\''] ++ (path ++ '\'' :: rest)) := by
      show ((callHead _ _).reverse ++ _).reverse ++ _ = _
      rw [List.reverse_append, List.reverse_reverse, List.reverse_reverse, callHead]
      simp only [List.append_assoc]
      rfl
    have hlength : (before ++ ("app.".toList ++ (method.toList ++ "(".toList))).length =
        before.length + 4 + method.toList.length + 1 := by
      simp only [List.length_append]
      show before.length + (4 + (method.toList.length + 1)) = _
      omega
    have hkept := between_append (before ++ ("app.".toList ++ (method.toList ++ "(".toList))) ['\'']
      (path ++ '\'' :: rest)
    rw [hlength, ← hparts] at hkept
    exact congrArg some hkept
  have hfront := prefers_callFront hmethod hstart hpath rest before.length before.reverse []
    (fun t => (again false "quote").run t some) (behind.pass '\'' rest) (run_again hquote rfl some)
  rw [matchHere?]
  show Option.map _ (routerCallPattern.run _ some) = _
  rw [run_routerCallPattern, hbehind, hfront]
  rfl

/-! ## Matches apart -/

/-- No match runs over the start of a line that begins neither with a blank nor with a parenthesis
nor with a quote. -/
theorem stop_le_of_newline {before rest : List Char} {c : Char} {m : Match}
    (hline : startsLine before.reverse = true)
    (hc : isSpace c = false ∧ c ≠ '(' ∧ isQuote c = false)
    (hm : routerCallPattern.Matches (before ++ c :: rest) (before ++ c :: rest) m)
    (hbefore : m.start < before.length) : m.stop ≤ before.length := by
  by_contra hover
  obtain ⟨name, blanks, more, quote, path, hparts⟩ := exists_callParts hm
  have hne : before ≠ [] := by
    rintro rfl
    exact absurd hbefore (Nat.not_lt_zero _)
  obtain ⟨front, d, rfl⟩ := (List.eq_nil_or_concat' before).resolve_left hne
  rw [List.reverse_concat, startsLine_cons, beq_iff_eq] at hline
  subst hline
  rw [List.length_append, List.length_singleton] at hbefore hover
  have hdrop : (front ++ ['\n'] ++ c :: rest).drop m.start =
      (front.drop m.start ++ ['\n', c]) ++ rest := by
    rw [List.append_assoc, List.drop_append_of_le_length (by omega), List.append_assoc]
    rfl
  -- A match that ran over the start of the line would hold the line feed and the character behind
  -- it.
  have htext : between (front ++ ['\n'] ++ c :: rest) m.start m.stop =
      front.drop m.start ++ '\n' :: c :: rest.take (m.stop - m.start -
        (front.drop m.start ++ ['\n', c]).length) := by
    have hlength : (front.drop m.start ++ ['\n', c]).length ≤ m.stop - m.start := by
      rw [List.length_append, List.length_drop]
      show front.length - m.start + 2 ≤ _
      omega
    rw [between, hdrop, List.take_append, List.take_of_length_le hlength, List.append_assoc]
    rfl
  rcases hparts.behind_newline htext with hspace | hparen | hquote
  · rw [hc.1] at hspace
    contradiction
  · exact hc.2.1 hparen
  · rw [hc.2.2] at hquote
    contradiction

/-- No match begins in a text without quotes nor at the parenthesis that closes behind it. -/
theorem lt_start_of_quotes {before front back : List Char} {m : Match}
    (hfront : ∀ c ∈ front, isQuote c = false)
    (hm : routerCallPattern.Matches (before ++ (front ++ ')' :: back))
      (before ++ (front ++ ')' :: back)) m)
    (hstart : before.length ≤ m.start) : before.length + front.length < m.start := by
  by_contra hover
  obtain ⟨name, blanks, more, quote, path, hparts⟩ := exists_callParts hm
  obtain ⟨passed, hpassed⟩ := Nat.exists_eq_add_of_le hstart
  have hdrop : (before ++ (front ++ ')' :: back)).drop m.start =
      front.drop passed ++ ')' :: back := by
    rw [hpassed, List.drop_length_add_append, List.drop_append_of_le_length (by omega)]
  have hquotes : ∀ c ∈ front.drop passed, isQuote c = false :=
    fun c hc => hfront c (List.mem_of_mem_drop hc)
  have hprefix : between (before ++ (front ++ ')' :: back)) m.start m.stop <+:
      front.drop passed ++ ')' :: back := by
    rw [between, hdrop]
    exact List.take_prefix _ _
  exact hparts.not_isPrefix hquotes hprefix

/-- The matches that begin in a part of a text. -/
def callsIn (text : List Char) (start stop : Nat) : List Match :=
  (routerCallPattern.findAll text).filter fun m => start ≤ m.start && m.start < stop

section

variable {before after : List Char} {c : CallText}

/-- The printed call starts with what is matched of it. -/
theorem callText_append (c : CallText) (after : List Char) :
    c.text ++ after =
      callHead c.method.toList c.path ++ '\'' :: (c.others ++ ')' :: after) := by
  rw [CallText.text, CallText.arguments, callHead]
  simp only [List.append_assoc, List.cons_append, List.nil_append]
  rfl

theorem length_callText (c : CallText) :
    c.text.length = (callHead c.method.toList c.path).length + c.others.length + 2 := by
  have hlength := congrArg List.length (callText_append c [])
  simp only [List.length_append, List.length_cons, List.length_nil] at hlength
  omega

/-- The match of a printed call. -/
def callMatch (content before : List Char) (c : CallText) : Match :=
  ⟨content, before.length, before.length + (callHead c.method.toList c.path).length + 1,
    callCaptures before.length c.method.toList c.path⟩

/-- A printed call that starts a line is found. -/
theorem callMatch_mem (h : c.Plain) (hline : startsLine before.reverse = true)
    (after : List Char) :
    callMatch (before ++ (c.text ++ after)) before c ∈
      routerCallPattern.findAll (before ++ (c.text ++ after)) := by
  have hsurely : routerCallPattern.surely (fun _ => true) = true := by decide +kernel
  have hwithin : Within (before ++ (c.text ++ after))
      ⟨before.reverse, callHead c.method.toList c.path ++ '\'' :: (c.others ++ ')' :: after),
        before.length, []⟩ :=
    ⟨by rw [callText_append, List.reverse_reverse], List.length_reverse⟩
  have hmatch := matchHere?_routerCall hline h.method h.path h.literal
    (c.others ++ ')' :: after) (before ++ (c.text ++ after))
  refine mem_findAll hsurely hwithin rfl hmatch fun n hn hbefore => ?_
  have hmatches := matches_of_mem_findAll hn
  have hfirst : before ++ (c.text ++ after) = before ++ 'a' :: ("pp.".toList ++
      (c.method.toList ++ ('(' :: c.arguments ++ [')'])) ++ after) := rfl
  rw [hfirst] at hmatches
  exact stop_le_of_newline hline (by decide) hmatches hbefore

/-- **One match.** In a printed call that starts a line one match begins, at its start. -/
theorem callsIn_text (h : c.Plain) (hline : startsLine before.reverse = true)
    (after : List Char) :
    callsIn (before ++ (c.text ++ after)) before.length (before.length + c.text.length) =
      [callMatch (before ++ (c.text ++ after)) before c] := by
  have hsurely : routerCallPattern.surely (fun _ => true) = true := by decide +kernel
  have hlength := length_callText c
  have hinside : before.length < before.length + c.text.length := by omega
  refine filter_findAll_eq_singleton hsurely (callMatch_mem h hline after) hinside
    fun n hn hbehind => ?_
  have hparts : before ++ (c.text ++ after) =
      (before ++ callHead c.method.toList c.path ++ ['\'']) ++ (c.others ++ ')' :: after) := by
    rw [callText_append, List.append_assoc, List.append_assoc, List.singleton_append]
  have hplace : (before ++ callHead c.method.toList c.path ++ ['\'']).length =
      before.length + (callHead c.method.toList c.path).length + 1 := by
    rw [List.length_append, List.length_append]
    rfl
  have hmatches := matches_of_mem_findAll hn
  rw [hparts] at hmatches
  have hpast := lt_start_of_quotes h.quotes hmatches (hplace ▸ hbehind)
  omega

/-! ## The route of a printed call -/

/-- What stands between two offsets of a text whose parts are known. -/
theorem between_of_append {text first middle last : List Char} {start : Nat}
    (htext : text = first ++ (middle ++ last)) (hstart : first.length = start) :
    between text start (start + middle.length) = middle := by
  rw [htext, ← hstart, between_append]

/-- What stands in front of the parenthesis of a printed call. -/
def callFrontText (before : List Char) (c : CallText) : List Char :=
  before ++ "app.".toList ++ c.method.toList

theorem length_callFrontText (before : List Char) (c : CallText) :
    (callFrontText before c).length = before.length + 4 + c.method.length := by
  rw [callFrontText, List.length_append, List.length_append, String.length_toList]
  rfl

theorem callFrontText_append (before : List Char) (c : CallText) (after : List Char) :
    before ++ (c.text ++ after) =
      callFrontText before c ++ ('(' :: c.arguments ++ [')'] ++ after) := by
  simp only [callFrontText, CallText.text, List.append_assoc]

/-- The method and the path are kept. -/
theorem group?_callMatch {content : List Char} (hcontent : content = before ++ (c.text ++ after)) :
    (callMatch content before c).group? "method" = some c.method.toList ∧
      (callMatch content before c).group? "path" = some c.path := by
  rw [callFrontText_append] at hcontent
  constructor
  · have hparts : content = (before ++ "app.".toList) ++
        (c.method.toList ++ ('(' :: c.arguments ++ [')'] ++ after)) := by
      rw [hcontent, callFrontText, List.append_assoc]
    exact congrArg some (between_of_append hparts List.length_append)
  · have hparts : content = (callFrontText before c ++ ['(', '\'']) ++
        (c.path ++ ('\'' :: (c.others ++ ')' :: after))) := by
      simp only [hcontent, CallText.arguments, List.append_assoc, List.cons_append,
        List.nil_append]
    have hlength : (callFrontText before c ++ ['(', '\'']).length =
        before.length + 4 + c.method.length + 2 := by
      rw [List.length_append, length_callFrontText]
      rfl
    exact congrArg some (between_of_append hparts hlength)

/-- The route of a printed call: it ends at the parenthesis and has the names of the middlewares, if
scans look that far. -/
theorem routerCall_callMatch (h : c.Plain) (r : RouteSource)
    (hcontent : r.view.content = before ++ (c.text ++ after)) :
    ∃ stop, ((c.arguments.length : Int) + 2 ≤ r.limits.block →
        stop = before.length + c.text.length) ∧
      routerCall r (callMatch r.view.content before c) =
        r.route (String.ofList (c.method.toList.map Char.toUpper)) c.path before.length stop
          "express" (if (c.arguments.length : Int) + 2 ≤ r.limits.block then
            ((c.middlewares.map (·.name)).filter (!startsFunction ·)).map String.ofList
          else []) := by
  obtain ⟨hmethod, hpath⟩ := group?_callMatch hcontent
  obtain ⟨front, hfront⟩ : ∃ front, front = callFrontText before c := ⟨_, rfl⟩
  have hlength : front.length = before.length + 4 + c.method.length :=
    hfront ▸ length_callFrontText before c
  have hparts : r.view.content = front ++ ('(' :: c.arguments ++ [')'] ++ after) := by
    rw [hcontent, hfront, callFrontText_append]
  have hspan : ((callMatch r.view.content before c).span? "method").elim 0 (·.stop) =
      front.length := by
    rw [hlength]
    rfl
  have hparen : indexFrom? ['('] r.view.content front.length = some front.length :=
    indexFrom?_here (by simp [hparts])
  have hclosing := closing?_of_neutral rfl front after r.limits.block h.neutral_arguments
  rw [← hparts] at hclosing
  rw [routerCall, hmethod, hpath, hspan, hparen, Option.getD_some, Option.getD_some,
    Option.getD_some, hclosing]
  -- The closing parenthesis is found if scans look that far.
  by_cases hceiling : (c.arguments.length : Int) + 2 ≤ r.limits.block
  · have hkept : between r.view.content (front.length + 1)
        (front.length + 1 + c.arguments.length) = c.arguments := by
      have hbehind : r.view.content = (front ++ ['(']) ++ (c.arguments ++ (')' :: after)) := by
        simp only [hparts, List.append_assoc, List.cons_append, List.nil_append]
      exact between_of_append hbehind List.length_append
    have hstop : front.length + 1 + c.arguments.length + 1 = before.length + c.text.length := by
      have hall := congrArg List.length (callFrontText_append before c [])
      rw [← hfront] at hall
      simp only [List.length_append, List.length_cons, List.length_nil] at hall
      omega
    refine ⟨before.length + c.text.length, fun _ => rfl, ?_⟩
    rw [if_pos hceiling, if_pos hceiling]
    show r.route _ _ _ (front.length + 1 + c.arguments.length + 1) _
      (middlewareNames (splitTopLevel (between _ _ (front.length + 1 + c.arguments.length)) _)) = _
    rw [hkept, middlewareNames_arguments h, hstop]
    rfl
  · let found := block r.view.content before.length (callMatch r.view.content before c).stop
      r.limits.fallback r.limits.block
    refine ⟨before.length + found.length, fun hfits => absurd hfits hceiling, ?_⟩
    rw [if_neg hceiling, if_neg hceiling]
    rfl

/-- What is reported of a printed call: its method in upper case, its path, and the names of its
middlewares that do not start like a function, if scans look that far. -/
structure Registered (limits : Limits) (info : FileInfo) (before : List Char) (c : CallText)
    (r : Route) : Prop where
  file : r.filePath = info.path
  framework : r.framework = "express"
  method : r.method = String.ofList (c.method.toList.map Char.toUpper)
  path : r.path = String.ofList c.path
  first : r.lineStart = 1 + before.count '\n'
  middleware : r.middleware =
    if (c.arguments.length : Int) + 2 ≤ limits.block then
      ((c.middlewares.map (·.name)).filter (!startsFunction ·)).map String.ofList
    else []
  whole : (c.arguments.length : Int) + 2 ≤ limits.block →
    r.code = String.ofList (limits.keep "route" c.text) ∧
      r.lineEnd = 1 + before.count '\n' + c.text.count '\n'

end

/-- **Router calls.** Of a printed call that starts a line one route is reported, whatever the file
holds before and behind it. -/
theorem routerCall_printed (limits : Limits) (auth : Security.Auth) (info : FileInfo)
    {before : List Char} {c : CallText} (h : c.Plain) (hline : startsLine before.reverse = true)
    (after : List Char) :
    let v := View.ofFile info (before ++ (c.text ++ after))
    ∃ r, (callsIn v.content before.length (before.length + c.text.length)).map
        (routerCall ⟨limits, v, auth.protects v.content⟩) = [r] ∧
      r ∈ routes limits auth v ∧ Registered limits info before c r := by
  intro v
  have hcontent : v.content = before ++ (c.text ++ after) := rfl
  have hcalls : callsIn v.content before.length (before.length + c.text.length) =
      [callMatch v.content before c] := callsIn_text h hline after
  have hroute : routerCall ⟨limits, v, auth.protects v.content⟩ (callMatch v.content before c) ∈
      routes limits auth v :=
    List.mem_append_right _ (List.mem_map_of_mem (callMatch_mem h hline after))
  obtain ⟨stop, hstop, hreported⟩ :=
    routerCall_callMatch h ⟨limits, v, auth.protects v.content⟩ hcontent
  rw [hcalls]
  refine ⟨_, rfl, hroute, ?_⟩
  rw [hreported]
  have hfirst : v.lineAt before.length = 1 + before.count '\n' := by
    rw [lineAt_ofFile, List.take_left]
    rfl
  refine ⟨rfl, rfl, rfl, rfl, hfirst, rfl, fun hfits => ?_⟩
  have hcode : trimEnd (between v.content before.length stop) = c.text := by
    have hlast : c.text.getLast? = some ')' := by
      rw [CallText.text, ← List.append_assoc, ← List.append_assoc]
      exact List.getLast?_concat
    rw [hstop hfits, between_of_append hcontent rfl, trimEnd_of_inked hlast (by decide)]
  constructor
  · show String.ofList (limits.keep "route" (trimEnd (between v.content before.length stop))) = _
    rw [hcode]
  · show v.lineAt before.length + count '\n' (trimEnd (between v.content before.length stop)) = _
    rw [hcode, hfirst]
    rfl

/-- A call behind another line, with a name that is not reported between two that are. -/
theorem routerCall_printed_between :
    let limits : Limits := ⟨blockFallback, blockCeiling, signatureCeiling, definitionCeiling, 50,
      .ok []⟩
    let info : FileInfo := { (default : FileInfo) with path := "src/a.ts" }
    let c : CallText := ⟨"post", "/users/:id".toList, [⟨"auth.required".toList, none⟩,
      ⟨"asyncHandler".toList, none⟩, ⟨"limit".toList, some "\x7b max: [1, 2] \x7d".toList⟩],
      "wrap(show,\n  1)".toList⟩
    let v := View.ofFile info ("listen(3)\n".toList ++ (c.text ++ ";\n".toList))
    c.Plain ∧ startsLine "listen(3)\n".toList.reverse = true ∧
      ∃ r ∈ routes limits ⟨[]⟩ v, r.method = "POST" ∧ r.path = "/users/:id" ∧ r.lineStart = 2 ∧
        r.lineEnd = 3 ∧ r.middleware = ["auth.required", "limit"] := by
  intro limits info c v
  have hplain : c.Plain := by decide +kernel
  have hline : startsLine "listen(3)\n".toList.reverse = true := by decide
  have hfits : (c.arguments.length : Int) + 2 ≤ limits.block := by decide +kernel
  obtain ⟨r, -, hr, hreported⟩ := routerCall_printed limits ⟨[]⟩ info hplain hline ";\n".toList
  refine ⟨hplain, hline, r, hr, ?_, hreported.path, hreported.first, ?_, ?_⟩
  · rw [hreported.method]
    decide
  · rw [(hreported.whole hfits).2]
    decide
  · rw [hreported.middleware, if_pos hfits]
    decide

/-- **Skipped names.** A middleware is not reported, although it is a name and no function. -/
theorem middleware_skipped :
    let limits : Limits := ⟨blockFallback, blockCeiling, signatureCeiling, definitionCeiling, 50,
      .ok []⟩
    let info : FileInfo := { (default : FileInfo) with path := "a.ts" }
    let c : CallText := ⟨"get", "/x".toList, [⟨"asyncHandler".toList, none⟩], "h".toList⟩
    c.Plain ∧ (∀ m ∈ c.middlewares, m.name ∉ functionWords.map String.toList) ∧
      c.text = "app.get('/x', asyncHandler, h)".toList ∧
      (routes limits ⟨[]⟩ (View.ofFile info (c.text ++ "\n".toList))).map
        (fun r => (r.method, r.path, r.middleware)) = [("GET", "/x", [])] := by
  decide +kernel

end CodeSurvey.Extract
