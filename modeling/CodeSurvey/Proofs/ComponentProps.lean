import CodeSurvey.Proofs.ExportedFunctions
import CodeSurvey.Proofs.PrintedInterfaces
import CodeSurvey.Proofs.PropBindings
import CodeSurvey.Proofs.Sections

/-!
# Props of components

The props of a component are those that it binds, in the order in which it binds them. What type
they have is looked up in an interface that the file declares.

- `refuses_exported`, `refuses_exportedStart`: lines that begin no exported callable.
- `ComponentText`, `fileText`: an interface and a component behind it.
- `components_printed`: the component is found, with its props.
- `declaredProps_interface`: the members of an interface are looked up by its name.
- `Surveyor.props_printed`: the props in a survey.
- `Surveyor.props_unread`: props that are not read, since they are out of sight or brackets cross.
-/

namespace CodeSurvey.Extract

open Text Source Pattern

/-! ## Lines that export nothing -/

/-- With what the words behind the one for exports begin. -/
def exportedStart : CallableForm → CharSet
  | .declaration => .ofString "daf"
  | .arrow | .bareArrow | .expression => .char 'c'

section

variable {name : Pattern} {r : Rule CallableForm} {text : List Char}

/-- Exported callables are sought at the start of a line. -/
theorem exportedRules_onlyAtLines (hr : r ∈ exportedRules name) : r.pattern.OnlyAtLines := by
  refine onlyAtLines_of_reads fun s t hreads => ?_
  rw [reads_exportedRules name r hr] at hreads
  obtain ⟨u, hfront, -⟩ := hreads
  exact (exportsAt_of_reads hfront).line

/-- None is found where no blank stands behind the word for exports. -/
theorem refuses_exported (hr : r ∈ exportedRules name) (h : ∀ blanks c more,
      text = "export".toList ++ (blanks ++ c :: more) → blanks ≠ [] →
      ¬∀ b ∈ blanks, isSpace b = true) : r.pattern.Refuses text := by
  apply refuses_of_not_reads
  intro before offset kept t hreads
  rw [reads_exportedRules name r hr] at hreads
  obtain ⟨u, hfront, -⟩ := hreads
  obtain ⟨blanks, c, more, htext, hne, hblanks, -⟩ := (exportsAt_of_reads hfront).words
  exact h blanks c more htext hne hblanks

/-- Nor is one found where another word begins with a letter of its own. -/
theorem refuses_exportedStart (hr : r ∈ exportedRules name) {c : Char}
    (hfirst : text.find? (!(CharSet.union .space (.ofString "export")).mem ·) = some c)
    (hc : (exportedStart r.tag).mem c = false) : r.pattern.Refuses text := by
  apply refuses_of_not_reads
  intro before offset kept t hreads
  rw [reads_exportedRules name r hr] at hreads
  obtain ⟨u, hfront, -⟩ := hreads
  have hbegins : (exportedFront r.tag).beginsPast (.union .space (.ofString "export"))
      (exportedStart r.tag) = true := by
    cases r.tag <;> decide
  obtain ⟨d, hd, hmem⟩ := exists_find?_of_reads hbegins hfront
  obtain rfl := Option.some.inj (hfirst.symm.trans hd)
  rw [hc] at hmem
  contradiction

/-- A line that begins with another letter exports nothing. -/
theorem refuses_exported_head (hr : r ∈ exportedRules name) {c : Char} (hc : c ≠ 'e')
    (text : List Char) : r.pattern.Refuses (c :: text) := by
  refine refuses_exported hr fun blanks d more htext => ?_
  exact absurd (List.cons.inj htext).1 hc

/-- Nor does a member, whatever its name is: a sign stands right behind it. -/
theorem MemberLine.Plain.refuses_text {l : MemberLine} (h : l.Plain) (hr : r ∈ exportedRules name)
    (rest : List Char) : r.pattern.Refuses (l.text ++ rest) := by
  obtain ⟨-, hname⟩ := mem_of_isIdentifier h.member.name
  -- A line that is indented, or whose member is constant, begins with another letter. Otherwise the
  -- name stands at its start, which may begin with any letter.
  cases hindent : l.indent with
  | cons c indent =>
    have hc : c ≠ 'e' := by
      rcases h.indent c (by simp [hindent]) with rfl | rfl <;> decide
    rw [text, hindent, List.append_assoc]
    exact refuses_exported_head hr hc _
  | nil =>
    cases hconstant : l.member.constant with
    | true =>
      rw [text, hindent, MemberText.text, MemberText.front, hconstant, if_pos rfl]
      exact refuses_exported_head hr (by decide : 'r' ≠ 'e') _
    | false =>
      let behind := [' '] ++ (l.member.type ++ (l.mark?.toList ++ rest))
      have htext : l.text ++ rest =
          l.member.name ++ (l.member.mark ++ (":".toList ++ behind)) := by
        simp [text, hindent, MemberText.text, MemberText.front, hconstant, behind]
      have hsign : (l.member.mark ++ (":".toList ++ behind)).head?.any
          (fun c => isWord c || isSpace c) = false := by
        rw [MemberText.head?_behind_name]
        cases l.member.marked <;> decide
      rw [htext]
      refine refuses_exported hr fun blanks c more hparts hne hblanks => ?_
      obtain ⟨word, hword, hbehind⟩ := exists_word_behind hname hne hblanks hparts
      -- A letter of the word or a blank would stand where the sign does.
      rw [hbehind] at hsign
      obtain ⟨b, others, rfl⟩ := List.exists_cons_of_ne_nil hne
      cases word with
      | nil => simp [hblanks b List.mem_cons_self] at hsign
      | cons x word => simp [hword x List.mem_cons_self] at hsign

end

/-! ## Files -/

/-- The words in front of the name of a component. -/
def componentFront : List Char :=
  "export function ".toList

/-- What a component is printed from: its name, and the pattern that binds its props. -/
structure ComponentText where
  name : List Char
  bindings : List BindingText
  rest? : Option (List Char)

namespace ComponentText

/-- Everything before the parameters. -/
def header (c : ComponentText) : List Char :=
  componentFront ++ (c.name ++ ['('])

/-- The name begins with a capital letter, and all names are identifiers. -/
structure Plain (c : ComponentText) : Prop where
  capital : c.name.head?.any (CharSet.range 'A' 'Z').mem = true
  name : isIdentifier c.name = true
  bindings : ∀ b ∈ c.bindings, b.Plain
  rest : ∀ rest ∈ c.rest?, isIdentifier rest = true

instance (c : ComponentText) : Decidable c.Plain :=
  decidable_of_iff (c.name.head?.any (CharSet.range 'A' 'Z').mem = true ∧
      isIdentifier c.name = true ∧ (∀ b ∈ c.bindings, b.Plain) ∧
      ∀ rest ∈ c.rest?, isIdentifier rest = true)
    ⟨fun h => ⟨h.1, h.2.1, h.2.2.1, h.2.2.2⟩, fun h => ⟨h.capital, h.name, h.bindings, h.rest⟩⟩

variable {c : ComponentText}

/-- What is kept of a header. -/
def captures (c : ComponentText) (start : Nat) : List Capture :=
  [⟨"name", start + componentFront.length, start + componentFront.length + c.name.length⟩]

/-- The name is read to its end. -/
theorem Plain.prefers_componentName (h : c.Plain) (rest : List Char) (offset : Nat) :
    componentName.Prefers c.name (['('] ++ rest) offset [] := by
  obtain ⟨-, hname⟩ := mem_of_isIdentifier h.name
  have hcapital := h.capital
  cases hparts : c.name with
  | nil =>
    rw [hparts] at hcapital
    contradiction
  | cons first others =>
    rw [hparts] at hcapital hname
    exact (takes_one _ offset hcapital).prefers.pass
      (prefers_many _ rfl fun d hd => hname d (List.mem_cons_of_mem _ hd))

/-- The header is matched at the start of a line. -/
theorem Plain.matchHere?_header (h : c.Plain) {r : Rule CallableForm}
    (hr : r ∈ exportedRules componentName) (htag : r.tag = .declaration) (subject : List Char)
    {before : List Char} (rest : List Char) (offset : Nat) (hline : startsLine before = true) :
    r.pattern.matchHere? subject ⟨before, c.header ++ rest, offset, []⟩ false =
      some ⟨subject, offset, offset + c.header.length, c.captures offset⟩ := by
  let back := "function".toList ++ ([' '] ++ ((c.name ++ ['(']) ++ rest))
  have hexport : (lit "export").Prefers "export".toList ([' '] ++ back) offset [] :=
    (takes_lit "export" _ offset).prefers
  have hgap (place : Nat) : spaces1.Prefers [' '] back place [] :=
    (takes_spaces1 place rfl).prefers
  have hdefault (place : Nat) : (opt (lit "default" ++ spaces1)).Takes [] back place [] :=
    ((refuses_lit 'd' rfl (by simp [back])).seq _).opt place
  have hasync (place : Nat) : (opt (capture "async" (lit "async" ++ spaces1))).Takes [] back place
      [] := (((refuses_lit 'a' rfl (by simp [back])).seq _).capture "async").opt place
  have hinked : ((c.name ++ ['(']) ++ rest).head?.any isSpace = false := by
    rw [List.append_assoc]
    exact inked_identifier h.name _
  have hname (place : Nat) := prefers_name (h.prefers_componentName rest place)
  have hfront := ((hexport.seq (hgap _)).seq_nothing (hdefault _)).seq_nothing (hasync _)
  have hmatch := matchHere?_prefers subject hline
    ((hfront.seq_word "function" hinked).seq (hname _))
  have htext : c.header = "export".toList ++ [' '] ++ "function".toList ++ [' '] ++
      (c.name ++ ['(']) := by
    have hwords : componentFront = "export".toList ++ [' '] ++ "function".toList ++ [' '] := by
      decide
    rw [header, hwords]
  simp only [exportedRules, List.mem_cons, List.not_mem_nil, or_false] at hr
  rcases hr with rfl | rfl | rfl | rfl
  · rw [htext]
    exact hmatch
  all_goals contradiction

/-- The component as it is printed; everything behind the opening brace is its body. -/
def text (c : ComponentText) (type body : List Char) : List Char :=
  c.header ++ (patternText c.bindings c.rest? type ++ (')' :: ' ' :: '{' :: body))

end ComponentText

open ComponentText

/-- A file: an interface, as many empty lines as there may be, and a component. -/
def fileText (i : InterfaceText) (gap : Nat) (c : ComponentText) (body : List Char) : List Char :=
  i.text ++ '\n' :: (List.replicate gap '\n' ++ c.text i.name body)

variable {i : InterfaceText} {c : ComponentText} {r : Rule CallableForm} {gap : Nat}

/-- The lines above the component. -/
def linesAbove (i : InterfaceText) (gap : Nat) : List (List Char) :=
  (i.front ++ ['{']) :: (i.lines.map MemberLine.text ++ (['}'] :: List.replicate gap []))

theorem fileText_eq (i : InterfaceText) (gap : Nat) (c : ComponentText) (body : List Char) :
    fileText i gap c body = linesText (linesAbove i gap) ++ c.text i.name body := by
  have hgap : linesText (List.replicate gap []) = List.replicate gap '\n' := by
    induction gap with
    | zero => rfl
    | succ gap ih => rw [List.replicate_succ, linesText_cons, ih]; rfl
  simp [fileText, linesAbove, linesText_cons, linesText_append, hgap, InterfaceText.text,
    InterfaceText.inner]

/-- None of these lines exports a callable. -/
theorem passed_linesAbove (hi : i.Plain) {name : Pattern} (hr : r ∈ exportedRules name) (gap : Nat)
    (rest : List Char) : Passed r.pattern rest true (linesText (linesAbove i gap)) := by
  have hfront : '\n' ∉ i.front ++ ['{'] := by
    have hword : '\n' ∉ Declaration.word i.exported "export" := by cases i.exported <;> decide
    have hname := notMem_identifier hi.name
    simp [InterfaceText.front, hword, hname]
  -- The lines are the header of the interface, its members, its closing brace and empty ones.
  refine passed_linesText (fun line hline => ?_) (fun line hline rest => ?_) rest
  all_goals
    rcases List.mem_cons.mp hline with rfl | hline
    on_goal 2 => rcases List.mem_append.mp hline with hline | hline
    on_goal 2 => obtain ⟨l, hl, rfl⟩ := List.mem_map.mp hline
    on_goal 3 => rcases List.mem_cons.mp hline with rfl | hline
    on_goal 4 => rw [List.eq_of_mem_replicate hline]
  · exact hfront
  · exact (hi.lines l hl).notMem_text
  · decide
  · decide
  · have hfirst : ((i.front ++ ['{']) ++ '\n' :: rest).find?
        (!(CharSet.union .space (.ofString "export")).mem ·) = some 'i' := by
      rw [InterfaceText.front]
      cases i.exported <;> rfl
    exact refuses_exportedStart hr hfirst (by cases r.tag <;> decide)
  · exact (hi.lines l hl).refuses_text hr _
  · exact refuses_exported_head hr (by decide) _
  · exact refuses_exported_head hr (by decide) _

/-! ## Components -/

/-- Only declarations are read from the words in front of a component. -/
theorem tag_of_mem_exportedRules {name : Pattern} {r' : Rule CallableForm}
    (hr : r ∈ exportedRules name) (htag : r.tag = .declaration) (hr' : r' ∈ exportedRules name)
    (hne : r' ≠ r) : r'.tag ≠ .declaration := by
  simp only [exportedRules, List.mem_cons, List.not_mem_nil, or_false] at hr hr'
  rcases hr with rfl | rfl | rfl | rfl
  · rcases hr' with rfl | rfl | rfl | rfl
    · contradiction
    all_goals exact fun h => by contradiction
  all_goals contradiction

/-- **The first span.** Of all exported callables the component is found first. -/
theorem exists_scan_component (hi : i.Plain) (gap : Nat) (hc : c.Plain) (body : List Char) :
    let before := linesText (linesAbove i gap)
    ∃ others, scan (exportedRules componentName) (fileText i gap c body) =
      ⟨.declaration, fileText i gap c body, before.length, before.length + c.header.length,
        c.captures before.length⟩ :: others := by
  intro before
  obtain ⟨r, hr, htag⟩ : ∃ r ∈ exportedRules componentName, r.tag = .declaration :=
    ⟨_, List.mem_cons_self, rfl⟩
  let behind := patternText c.bindings c.rest? i.name ++ (')' :: ' ' :: '{' :: body)
  have hcontent : fileText i gap c body = before ++ (c.header ++ behind) := fileText_eq i gap c body
  have hline : startsLine before.reverse = true := startsLine_of_endsLine (endsLine_linesText _)
  have hmatch := hc.matchHere?_header hr htag (before ++ (c.header ++ behind)) behind before.length
    hline
  have hheader : c.header ≠ [] := List.append_ne_nil_of_left_ne_nil (by decide) _
  have hothers : ∀ r' ∈ exportedRules componentName, r' ≠ r →
      r'.pattern.Refuses (c.header ++ behind) := by
    intro r' hr' hne
    have hform := tag_of_mem_exportedRules hr htag hr' hne
    have hfirst : (c.header ++ behind).find?
        (!(CharSet.union .space (.ofString "export")).mem ·) = some 'f' := rfl
    refine refuses_exportedStart hr' hfirst ?_
    cases htag' : r'.tag with
    | declaration => contradiction
    | _ => decide
  rw [hcontent, ← htag]
  exact exists_scan_passed hr (fun r' hr' => exportedRules_onlyAtLines hr')
    (fun r' hr' => passed_linesAbove hi hr' gap _) hothers hheader hmatch

/-- Exported callables need a letter at the start of a line. -/
theorem exportedRules_anchored (hr : r ∈ exportedRules componentName) : r.pattern.Anchored := by
  have hlines := exportedRules_onlyAtLines hr
  simp only [exportedRules, List.mem_cons, List.not_mem_nil, or_false] at hr
  rcases hr with rfl | rfl | rfl | rfl
  all_goals exact hlines.anchored (by decide +kernel) (by decide +kernel)

/-- If the lines of the component are indented, nothing else is found. -/
theorem scan_component (hi : i.Plain) (gap : Nat) (hc : c.Plain) {body : List Char}
    (hlines : ∀ line ∈ (splitAt '\n' (c.text i.name body)).tail, isIndented line = true) :
    let before := linesText (linesAbove i gap)
    scan (exportedRules componentName) (fileText i gap c body) =
      [⟨.declaration, fileText i gap c body, before.length, before.length + c.header.length,
        c.captures before.length⟩] := by
  intro before
  obtain ⟨others, hscan⟩ := exists_scan_component hi gap hc body
  rw [hscan]
  refine congrArg _ (List.eq_nil_iff_forall_not_mem.mpr fun s hs => ?_)
  have hmem : s ∈ scan (exportedRules componentName) (fileText i gap c body) :=
    hscan ▸ List.mem_cons_of_mem _ hs
  obtain ⟨r, hr, -, hmatches⟩ := exists_rule_of_mem_scan hmem
  -- No line behind the first letter of the component starts with a letter.
  obtain ⟨more, hmore⟩ : ∃ more, c.text i.name body = 'e' :: more := ⟨_, rfl⟩
  have hcontent : fileText i gap c body = (before ++ ['e']) ++ more := by
    rw [fileText_eq, hmore, List.append_assoc]
    rfl
  have hquiet : Quiet (startsLine (before ++ ['e']).reverse) more := by
    have htext := (quiet_of_lines (c.text i.name body)).2 hlines
    rw [hmore] at htext
    rw [List.reverse_append, List.reverse_singleton, List.singleton_append, startsLine_cons]
    exact htext.2
  rw [hcontent] at hmatches
  have hstart := hmatches.start_lt_of_quiet (exportedRules_anchored hr) hquiet
  have hapart := scan_pairwise (exportedRules componentName) (fileText i gap c body)
  rw [hscan] at hapart
  have hbehind : before.length + c.header.length ≤ s.found.start :=
    (List.pairwise_cons.mp hapart).1 s hs
  have hheader : 1 ≤ c.header.length := by
    rw [ComponentText.header, List.length_append]
    have hfront : componentFront.length = 16 := by decide
    omega
  rw [List.length_append, List.length_singleton] at hstart
  omega

/-- The parenthesis behind the parameter is found if scans look that far. -/
theorem closing?_component (hc : c.Plain) {type : List Char} (htype : isIdentifier type = true)
    (before body : List Char) (ceiling : Int) :
    closing? (before ++ c.text type body) (before.length + c.header.length - 1) ceiling =
      if ((patternText c.bindings c.rest? type).length : Int) + 2 ≤ ceiling
      then some (before.length + c.header.length + (patternText c.bindings c.rest? type).length)
      else none := by
  let front := before ++ (componentFront ++ c.name)
  have hsteady := steady_patternText hc.bindings hc.rest htype
  have hcontent : before ++ c.text type body = front ++
      ('(' :: patternText c.bindings c.rest? type ++ [')'] ++ (' ' :: '{' :: body)) := by
    simp [front, ComponentText.text, ComponentText.header]
  have hheader : before.length + c.header.length = front.length + 1 := by
    simp only [front, ComponentText.header, List.length_append, List.length_singleton]
    omega
  rw [hcontent, hheader, Nat.add_sub_cancel]
  exact closing?_of_balanced rfl front _ ceiling hsteady.parentheses hsteady.quotes

/-- Behind its header the component is read with its parameter. -/
theorem exists_callable_component (hc : c.Plain) {type : List Char}
    (htype : isIdentifier type = true) {limits : Limits}
    (hsignature : ((patternText c.bindings c.rest? type).length : Int) + 2 ≤ limits.signature)
    (before body : List Char) (kept : List Capture) :
    let content := before ++ c.text type body
    ∃ callable, callableOf limits content
        ⟨.declaration, content, before.length, before.length + c.header.length, kept⟩ =
          some callable ∧ callable.params = patternText c.bindings c.rest? type := by
  intro content
  let params := patternText c.bindings c.rest? type
  have hclosing := closing?_component hc htype before body limits.signature
  rw [if_pos hsignature] at hclosing
  -- Behind the parameters a blank and the opening brace stand.
  let call := before ++ (c.header ++ (params ++ [')']))
  have hlength : call.length = before.length + c.header.length + params.length + 1 := by
    simp only [call, List.length_append, List.length_singleton]
    omega
  have hbehind : content = call ++ ' ' :: '{' :: body := by
    simp [content, call, params, ComponentText.text]
  have hreturn := returnType_brace call body limits.signature
  have hbrace : content.drop (skipBlanks content (call.length + 1)) = '{' :: body := by
    have hsplit : content = (call ++ [' ']) ++ '{' :: body := by simp [hbehind]
    have hskip : skipBlanks ((call ++ [' ']) ++ '{' :: body) (call ++ [' ']).length =
        (call ++ [' ']).length := skipBlanks_append rfl
    rw [List.length_append, List.length_singleton] at hskip
    rw [hsplit, hskip, List.drop_left' (by rw [List.length_append, List.length_singleton])]
  rw [← hbehind, hlength] at hreturn
  rw [hlength] at hbrace
  have hread := readCallable_of_brace hclosing hreturn hbrace
  refine ⟨_, hread, ?_⟩
  have hheader : before.length + c.header.length - 1 + 1 = (before ++ c.header).length := by
    simp only [ComponentText.header, List.length_append, List.length_singleton]
    omega
  have hmiddle := between_append (before ++ c.header) params (')' :: ' ' :: '{' :: body)
  rw [List.append_assoc, List.length_append] at hmiddle
  rw [hheader, List.length_append]
  exact hmiddle

/-- **Components.** The component is the first one of the file, and its props are those that it
binds, as its type declares them. If its lines are indented, there is no other one. -/
theorem components_printed (hi : i.Plain) (hc : c.Plain) {limits : Limits}
    (hsignature : ((patternText c.bindings c.rest? i.name).length : Int) + 2 ≤ limits.signature)
    (types : DeclaredTypes) (info : FileInfo) (body : List Char) :
    ∃ first others, components limits types (View.ofFile info (fileText i gap c body)) =
        first :: others ∧ first.name = String.ofList c.name ∧
      first.props = namedProps (declaredProps limits types i.name)
        (c.bindings.map fun b => (String.ofList b.name, b.default?.isSome)) ∧
      ((∀ line ∈ (splitAt '\n' (c.text i.name body)).tail, isIndented line = true) →
        others = []) := by
  let v := View.ofFile info (fileText i gap c body)
  let before := linesText (linesAbove i gap)
  let s : Span CallableForm := ⟨.declaration, v.content, before.length,
    before.length + c.header.length, c.captures before.length⟩
  obtain ⟨callable, hcallable, hparams⟩ :=
    exists_callable_component hc hi.name hsignature before body (c.captures before.length)
  rw [← fileText_eq] at hcallable
  obtain ⟨spans, hscan⟩ : ∃ spans, scan (exportedRules componentName) v.content = s :: spans :=
    exists_scan_component hi gap hc body
  -- The name stands behind the words of the header.
  have hname : s.group "name" = c.name := by
    have hmiddle := between_append (before ++ componentFront) c.name
      (['('] ++ (patternText c.bindings c.rest? i.name ++ (')' :: ' ' :: '{' :: body)))
    have hcontent : (before ++ componentFront) ++ (c.name ++ (['('] ++
        (patternText c.bindings c.rest? i.name ++ (')' :: ' ' :: '{' :: body)))) = v.content := by
      show _ = fileText i gap c body
      rw [fileText_eq, ComponentText.text, ComponentText.header]
      simp only [List.append_assoc, before]
    rw [hcontent, List.length_append] at hmiddle
    exact hmiddle
  have hprops := props_pattern limits types (((s.group? "annotation").bind
    componentTypePattern.search?).bind (·.group? "props")) hc.bindings hc.rest hi.name
  rw [← hparams] at hprops
  have hread : callableOf limits v.content s = some callable := hcallable
  rw [components, exportedCallables, hscan, List.filterMap_cons, hread, Option.map_some,
    List.map_cons]
  refine ⟨_, _, rfl, congrArg String.ofList hname, hprops, fun hlines => ?_⟩
  have halone : scan (exportedRules componentName) v.content = [s] :=
    scan_component hi gap hc hlines
  rw [hscan, List.cons.injEq] at halone
  rw [halone.2]
  rfl

/-- **Long patterns.** A component of which scans do not see the end of the parameters is not
found. -/
theorem components_unread (hi : i.Plain) (hc : c.Plain) {limits : Limits}
    (hsignature : limits.signature < (patternText c.bindings c.rest? i.name).length + 2)
    (types : DeclaredTypes) (info : FileInfo) {body : List Char}
    (hlines : ∀ line ∈ (splitAt '\n' (c.text i.name body)).tail, isIndented line = true) :
    components limits types (View.ofFile info (fileText i gap c body)) = [] := by
  let v := View.ofFile info (fileText i gap c body)
  let before := linesText (linesAbove i gap)
  let s : Span CallableForm := ⟨.declaration, v.content, before.length,
    before.length + c.header.length, c.captures before.length⟩
  have hscan : scan (exportedRules componentName) v.content = [s] := scan_component hi gap hc hlines
  have hclosing : closing? v.content (s.stop - 1) limits.signature = none := by
    have hparen := closing?_component hc hi.name before body limits.signature
    rw [← fileText_eq, if_neg (by omega)] at hparen
    exact hparen
  have hread : callableOf limits v.content s = none := by
    show readCallable limits v.content (s.stop - 1) .forbidden = none
    rw [readCallable, hclosing]
    rfl
  rw [components, exportedCallables, hscan, List.filterMap_cons, hread]
  rfl

/-! ## Types of props -/

/-- An interface is looked up by its name, before any type alias. -/
theorem declaredProps_interface (limits : Limits) {type : List Char}
    (htype : isIdentifier type = true) {first : Interface} (hname : first.name = String.ofList type)
    (others : List Interface) (aliases : List TypeAlias) :
    declaredProps limits ⟨first :: others, aliases⟩ type = first.properties := by
  have hidle := idle_of_identifier htype
  have hangle : '<' ∉ type := fun hmem => absurd (hidle '<' hmem).1 (by decide)
  have hbrace : (type.head? == some '{') = false := by
    rw [beq_eq_false_iff_ne]
    exact fun hhead => absurd (hidle '{' (List.mem_of_head? hhead)).1 (by decide)
  have hwrapped := replaceAll_of_notMem (p := wrappedType) (by decide) hangle
  simp only [declaredProps, trim_identifier htype, hbrace, hwrapped, hname, List.find?_cons,
    beq_self_eq_true, Bool.false_eq_true, if_false]

/-- If no name stands twice, it makes no difference from which end one is sought. -/
theorem find?_reverse_of_nodup {declared : List Property} (h : (declared.map (·.name)).Nodup)
    (name : String) :
    declared.reverse.find? (·.name == name) = declared.find? (·.name == name) := by
  induction declared with
  | nil => rfl
  | cons property declared ih =>
    obtain ⟨hfirst, hothers⟩ := List.nodup_cons.mp h
    simp only [List.reverse_cons, List.find?_append, ih hothers, List.find?_cons, List.find?_nil]
    cases hname : property.name == name with
    | false => simp
    | true =>
      have hnone : declared.find? (·.name == name) = none := by
        rw [List.find?_eq_none]
        intro other hother hsame
        refine hfirst (List.mem_map.mpr ⟨other, hother, ?_⟩)
        exact (eq_of_beq hsame).trans (eq_of_beq hname).symm
      simp [hnone]

/-- The prop that a binding stands for: the member with its name, or else a prop without a type that
may be left out exactly if there is a default. -/
def InterfaceText.prop (i : InterfaceText) (b : BindingText) : Property :=
  match i.lines.find? (·.member.name == b.name) with
  | some l => l.member.property
  | none => { name := String.ofList b.name, isOptional := b.default?.isSome }

/-- Bindings are looked up among the members. -/
theorem namedProps_members (hnames : (i.lines.map (·.member.name)).Nodup)
    (bindings : List BindingText) :
    namedProps (i.lines.map (·.member.property))
        (bindings.map fun b => (String.ofList b.name, b.default?.isSome)) =
      bindings.map i.prop := by
  have hdeclared : ((i.lines.map (·.member.property)).map (·.name)).Nodup := by
    have hmap : (i.lines.map (·.member.property)).map (·.name) =
        (i.lines.map (·.member.name)).map String.ofList := by
      rw [List.map_map, List.map_map]
      rfl
    rw [hmap]
    exact hnames.map fun _ _ => String.ofList_inj.mp
  rw [namedProps, List.map_map]
  refine List.map_congr_left fun b _ => ?_
  have hsame (l : MemberLine) : (l.member.property.name == String.ofList b.name) =
      (l.member.name == b.name) := by
    rw [Bool.eq_iff_iff, beq_iff_eq, beq_iff_eq]
    exact String.ofList_inj
  have hfind : (i.lines.map (·.member.property)).find? (·.name == String.ofList b.name) =
      (i.lines.find? (·.member.name == b.name)).map (·.member.property) := by
    rw [List.find?_map]
    exact congrArg (fun found => (i.lines.find? found).map (·.member.property)) (funext hsame)
  simp only [Function.comp_apply, find?_reverse_of_nodup hdeclared, hfind, InterfaceText.prop]
  cases i.lines.find? (·.member.name == b.name) <;> rfl

end CodeSurvey.Extract

namespace CodeSurvey.Survey

open Extract

section

variable (s : Surveyor) (x : Extractors) {file : SourceFile} {i : InterfaceText} {c : ComponentText}
  {gap : Nat} {body : List Char}

/-- The components of a file with a component behind an interface are those that are found with the
interfaces and the type aliases of the survey. -/
theorem Surveyor.components_fileText {entries : List (String × Int)}
    (hcode : x.limits.code = .ok entries) (hstructural : (s.infoOf file).structural = true)
    (hjsx : x.jsx.contains (s.infoOf file).language = true)
    (hcontent : file.content.toList = fileText i gap c body) :
    (s.surveyOf x [] file).entities .components =
      components x.limits ⟨(s.surveyOf x [] file).entities .interfaces,
        (s.surveyOf x [] file).entities .types⟩
        (View.ofFile (s.infoOf file) (fileText i gap c body)) := by
  have hview : (s.contextOf x [] file).view = View.ofFile (s.infoOf file) (fileText i gap c body) :=
    congrArg (View.ofFile (s.infoOf file)) hcontent
  have happlies : x.appliesTo (s.contextOf x [] file).view .components = true :=
    Bool.and_eq_true_iff.mpr ⟨hstructural, hjsx⟩
  rw [s.surveyOf_entities x file happlies (by rw [Extractors.unkept?, hcode]), hview,
    Extractors.found]

/-- The interface is the first one of the survey. -/
theorem Surveyor.interfaces_fileText {entries : List (String × Int)}
    (hcode : x.limits.code = .ok entries) (hstructural : (s.infoOf file).structural = true)
    (htyped : x.typed.contains (s.infoOf file).language = true)
    (hcontent : file.content.toList = fileText i gap c body) (hi : i.Plain)
    (hblock : (i.inner.length : Int) + 1 ≤ x.limits.block) :
    ∃ others, (s.surveyOf x [] file).entities .interfaces =
      i.record x.limits (s.infoOf file).path :: others := by
  have hview : (s.contextOf x [] file).view = View.ofFile (s.infoOf file) (fileText i gap c body) :=
    congrArg (View.ofFile (s.infoOf file)) hcontent
  have happlies : x.appliesTo (s.contextOf x [] file).view .interfaces = true :=
    Bool.and_eq_true_iff.mpr ⟨hstructural, htyped⟩
  rw [s.surveyOf_entities x file happlies (by rw [Extractors.unkept?, hcode]), hview,
    Extractors.found]
  exact hi.interfaces_printed hblock (s.infoOf file) _

/-- **Destructured props.** In a file with an interface and a component behind it that binds its
props by a pattern of that type, each name bound is a prop of the component, in order and without
the rest: the member of the interface that is called so, or else a prop without a type that may be
left out exactly if it has a default. If the lines of the component are indented, it is the only
one. Scans have to see the end of the interface and of the pattern, and no member may be cut off. -/
theorem Surveyor.props_printed (hi : i.Plain) (hnames : (i.lines.map (·.member.name)).Nodup)
    (hc : c.Plain)
    (hcount : (i.lines.length : Int) ≤ x.limits.properties ∨ x.limits.properties = 0)
    (hblock : (i.inner.length : Int) + 1 ≤ x.limits.block)
    (hsignature :
      ((Source.patternText c.bindings c.rest? i.name).length : Int) + 2 ≤ x.limits.signature)
    (hcode : ∃ entries, x.limits.code = .ok entries)
    (hstructural : (s.infoOf file).structural = true)
    (htyped : x.typed.contains (s.infoOf file).language = true)
    (hjsx : x.jsx.contains (s.infoOf file).language = true)
    (hcontent : file.content.toList = fileText i gap c body) :
    ∃ first others, (s.surveyOf x [] file).entities .components = first :: others ∧
      first.name = String.ofList c.name ∧ first.props = c.bindings.map i.prop ∧
      ((∀ line ∈ (Text.splitAt '\n' (c.text i.name body)).tail, isIndented line = true) →
        others = []) := by
  obtain ⟨entries, hcode⟩ := hcode
  obtain ⟨interfaces, hinterfaces⟩ :=
    s.interfaces_fileText x hcode hstructural htyped hcontent hi hblock
  let types : DeclaredTypes := ⟨i.record x.limits (s.infoOf file).path :: interfaces,
    (s.surveyOf x [] file).entities .types⟩
  have hdeclared : declaredProps x.limits types i.name = i.lines.map (·.member.property) := by
    rw [declaredProps_interface x.limits hi.name rfl]
    exact Source.limited_eq_self (by rwa [List.length_map])
  obtain ⟨first, others, hfirst, hname, hprops, halone⟩ :=
    components_printed hi hc hsignature types (s.infoOf file) body
  refine ⟨first, others, ?_, hname, ?_, halone⟩
  · rw [s.components_fileText x hcode hstructural hjsx hcontent, hinterfaces]
    exact hfirst
  · rw [hprops, hdeclared, namedProps_members hnames]

end

/-- An interface with members of several types. -/
def cardInterface : InterfaceText where
  exported := true
  name := "CardProps".toList
  lines := [
    ⟨"  ".toList, ⟨true, "title".toList, false, "string".toList⟩, some ';'⟩,
    ⟨"\t".toList, ⟨false, "on".toList, true, "(at: Map<K, V>) => void".toList⟩, some ','⟩,
    ⟨"  ".toList, ⟨false, "data".toList, false, "{ a: A; b: B }".toList⟩, none⟩]

/-- A component that binds its props by other names, with defaults, and one that is not declared. -/
def cardComponent : ComponentText where
  name := "Card".toList
  bindings := [
    ⟨"data".toList, some "item".toList, some "{ a: [1, 2], b: f(x, y) }".toList⟩,
    ⟨"title".toList, none, none⟩,
    ⟨"size".toList, none, some "4".toList⟩,
    ⟨"on".toList, some "handler".toList, none⟩,
    ⟨"plain".toList, none, none⟩]
  rest? := some "others".toList

/-- The body of the component, from behind its opening brace to the end of the file. -/
def cardBody : List Char :=
  "\n  return null\n\x7d\n".toList

/-- A file with this text. -/
def cardSource (text : List Char) : SourceFile :=
  { path := "src/Card.tsx", content := String.ofList text }

/-- What the settings by default say about such a file. -/
theorem Surveyor.exists_standard :
    ∃ s x, Surveyor.ofSettings [] none = .ok s ∧ s.extractors = .ok x ∧
      (∃ entries, x.limits.code = .ok entries) ∧ x.limits.properties = 50 ∧
      x.limits.block = 2000000 ∧ x.limits.signature = 5000 ∧
      ∀ text, (s.infoOf (cardSource text)).structural = true ∧
        x.typed.contains (s.infoOf (cardSource text)).language = true ∧
        x.jsx.contains (s.infoOf (cardSource text)).language = true := by
  have hfacts : ((Surveyor.ofSettings [] none).map fun s => (s.extractors.map fun x =>
      (decide (x.limits.properties = 50) && decide (x.limits.block = 2000000) &&
        decide (x.limits.signature = 5000) && x.limits.code.toOption.isSome) &&
      (decide (Files.namedLanguage? s.classifier.endings (Files.nameOf "src/Card.tsx".toList) =
        some "tsx") && s.classifier.structural.contains "tsx" && x.typed.contains "tsx" &&
        x.jsx.contains "tsx")).toOption).toOption = some (some true) := by
    decide +kernel
  obtain ⟨s, hs, hseen⟩ := exists_eq_ok_of_map hfacts
  obtain ⟨x, hx, hseen⟩ := exists_eq_ok_of_map hseen
  simp only [Bool.and_eq_true, decide_eq_true_eq] at hseen
  obtain ⟨⟨⟨⟨hproperties, hblock⟩, hsignature⟩, hcode⟩, ⟨⟨hnamed, hstructural⟩, htyped⟩, hjsx⟩ :=
    hseen
  have hlanguage (text : List Char) : s.classifier.language (cardSource text) = "tsx" := by
    rw [Files.Classifier.language]
    show ((none <|> Files.namedLanguage? s.classifier.endings
      (Files.nameOf "src/Card.tsx".toList) <|> _).getD "unknown") = "tsx"
    rw [hnamed]
    rfl
  refine ⟨s, x, hs, hx, ?_, hproperties, hblock, hsignature, fun text => ?_⟩
  · cases hentries : x.limits.code with
    | ok entries => exact ⟨entries, rfl⟩
    | error e =>
      rw [hentries] at hcode
      contradiction
  · simp only [Surveyor.infoOf, Files.Classifier.classify, hlanguage]
    exact ⟨hstructural, htyped, hjsx⟩

/-- Members are found by the names of the props, whatever these are bound to. -/
theorem Surveyor.props_printed_card :
    ∃ s x, Surveyor.ofSettings [] none = .ok s ∧ s.extractors = .ok x ∧
      cardInterface.Plain ∧ (cardInterface.lines.map (·.member.name)).Nodup ∧ cardComponent.Plain ∧
      ∃ c, (s.surveyOf x [] (cardSource (fileText cardInterface 1 cardComponent
          cardBody))).entities .components = [c] ∧ c.name = "Card" ∧
        c.props = [
          { name := "data", type := some "{ a: A; b: B }" },
          { name := "title", type := some "string" },
          { name := "size", isOptional := true },
          { name := "on", type := some "(at: Map<K, V>) => void", isOptional := true },
          { name := "plain" }] := by
  obtain ⟨s, x, hs, hx, hcode, hproperties, hblock, hsignature, hfile⟩ := Surveyor.exists_standard
  have hi : cardInterface.Plain := by decide +kernel
  have hnames : (cardInterface.lines.map (·.member.name)).Nodup := by decide +kernel
  have hc : cardComponent.Plain := by decide +kernel
  obtain ⟨hstructural, htyped, hjsx⟩ := hfile (fileText cardInterface 1 cardComponent cardBody)
  obtain ⟨c, others, hcomponents, hname, hprops, halone⟩ := s.props_printed x hi hnames hc
    (.inl (by rw [hproperties]; decide)) (by rw [hblock]; decide +kernel)
    (by rw [hsignature]; decide +kernel) hcode hstructural htyped hjsx String.toList_ofList
  obtain rfl := halone (by decide +kernel)
  exact ⟨s, x, hs, hx, hi, hnames, hc, c, hcomponents, hname, hprops.trans (by decide +kernel)⟩

/-- An interface without members. -/
def emptyInterface : InterfaceText :=
  ⟨false, ['P'], []⟩

/-- A component that binds one prop with this name. -/
def oneBinding (name : List Char) : ComponentText :=
  ⟨['C'], [⟨name, none, none⟩], none⟩

/-- The file with both of them. -/
def oneBindingText (name : List Char) : List Char :=
  fileText emptyInterface 0 (oneBinding name) "\n\x7d\n".toList

theorem patternText_oneBinding (name : List Char) :
    Source.patternText (oneBinding name).bindings (oneBinding name).rest? emptyInterface.name =
      ['{', ' '] ++ (name ++ [' ', '}', ':', ' ', 'P']) := by
  simp [Source.patternText, Source.patternInner, Source.patternParts, oneBinding, emptyInterface,
    Source.BindingText.text, Source.BindingText.label, Text.join_singleton]

theorem plain_oneBinding {name : List Char} (h : isIdentifier name = true) :
    (oneBinding name).Plain where
  capital := rfl
  name := rfl
  bindings b hb := by
    rw [List.mem_singleton.mp hb]
    exact ⟨h, fun other hother => by contradiction, fun default hdefault => by contradiction⟩
  rest rest hrest := by contradiction

/-- Behind its first line there is the closing brace only. -/
theorem lines_oneBinding {name : List Char} (h : isIdentifier name = true) :
    ∀ line ∈ (Text.splitAt '\n' ((oneBinding name).text emptyInterface.name
      "\n\x7d\n".toList)).tail, isIndented line = true := by
  let first := (oneBinding name).header ++ (['{', ' '] ++ (name ++ [' ', '}', ':', ' ', 'P'])) ++
    [')', ' ', '{']
  have htext : (oneBinding name).text emptyInterface.name "\n\x7d\n".toList =
      first ++ '\n' :: ['}', '\n'] := by
    rw [ComponentText.text, patternText_oneBinding]
    simp [first]
  have hfirst : '\n' ∉ first := by
    have hname := notMem_identifier h
    have hheader : '\n' ∉ (oneBinding name).header :=
      (by decide : '\n' ∉ componentFront ++ (['C'] ++ ['(']))
    simp [first, hname, hheader]
  rw [htext, Text.splitAt_append_cons, Text.splitAt_eq_singleton hfirst]
  exact (by decide : ∀ line ∈ Text.splitAt '\n' ['}', '\n'], isIndented line = true)

theorem isIdentifier_replicate (n : Nat) : isIdentifier (List.replicate (n + 1) 'a') = true := by
  have hrest : ∀ c ∈ List.replicate n 'a', Source.identifierRest.mem c = true := by
    intro c hc
    rw [List.eq_of_mem_replicate hc]
    decide
  rw [List.replicate_succ, isIdentifier, List.all_eq_true.mpr hrest]
  decide

/-- A component with brackets that cross in the default of the first of its two props. -/
def crossedComponent : ComponentText :=
  ⟨['C'], [⟨['a'], none, some "(\x7d\x7b)".toList⟩, ⟨['b'], none, none⟩], none⟩

/-- **Limits of the reading.** If the name of the prop is long, the end of the pattern is out of
sight and the file has no components. If brackets cross in a default, the pattern seems to end at
the brace among them, and the prop behind it is lost. -/
theorem Surveyor.props_unread :
    ∃ s x, Surveyor.ofSettings [] none = .ok s ∧ s.extractors = .ok x ∧
      emptyInterface.Plain ∧ (emptyInterface.lines.length : Int) ≤ x.limits.properties ∧
      (let name := List.replicate 5000 'a'
       (oneBinding name).Plain ∧
        (∀ line ∈ (Text.splitAt '\n' ((oneBinding name).text emptyInterface.name
          "\n\x7d\n".toList)).tail, isIndented line = true) ∧
        (s.surveyOf x [] (cardSource (oneBindingText name))).entities .components = []) ∧
      Source.Balanced Source.isTypeOpener Source.isTypeCloser "(\x7d\x7b)".toList ∧
      ((s.surveyOf x [] (cardSource (fileText emptyInterface 0 crossedComponent
        "\n\x7d\n".toList))).entities .components).map (fun c => (c.name, c.props)) =
          [("C", [{ name := "a", isOptional := true }])] := by
  obtain ⟨s, x, hs, hx, ⟨entries, hcode⟩, hproperties, -, hsignature, hfile⟩ :=
    Surveyor.exists_standard
  have hi : emptyInterface.Plain := by decide +kernel
  refine ⟨s, x, hs, hx, hi, by rw [hproperties]; decide, ?_, by decide, ?_⟩
  · intro name
    obtain ⟨hstructural, -, hjsx⟩ := hfile (oneBindingText name)
    have hname : isIdentifier name = true := isIdentifier_replicate 4999
    have hlines := lines_oneBinding hname
    have hlong : x.limits.signature < (Source.patternText (oneBinding name).bindings
        (oneBinding name).rest? emptyInterface.name).length + 2 := by
      rw [hsignature, patternText_oneBinding]
      simp only [name, List.length_append, List.length_replicate, List.length_cons]
      omega
    refine ⟨plain_oneBinding hname, hlines, ?_⟩
    rw [s.components_fileText x hcode hstructural hjsx String.toList_ofList]
    exact components_unread hi (plain_oneBinding hname) hlong _ _ hlines
  · have hfacts : ((Surveyor.ofSettings [] none).map fun s => (s.extractors.map fun x =>
        decide (((s.surveyOf x [] (cardSource (fileText emptyInterface 0 crossedComponent
          "\n\x7d\n".toList))).entities .components).map (fun c => (c.name, c.props)) =
            [("C", [{ name := "a", isOptional := true }])])).toOption).toOption =
              some (some true) := by
      decide +kernel
    simp only [hs, hx, Except.map, Except.toOption, Option.some.injEq] at hfacts
    exact of_decide_eq_true hfacts

end CodeSurvey.Survey
