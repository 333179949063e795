import CodeSurvey.Proofs.Assembly
import CodeSurvey.Proofs.Attempts
import CodeSurvey.Proofs.EntityPaths
import CodeSurvey.Proofs.Findings
import CodeSurvey.Proofs.Matches

/-!
# Routes and the check for protection

Two searches look at the handlers that a route file exports: one reads routes out of the whole text,
the other is a rule that is applied line by line. They agree. In a protected file no handler is
reported, and in an unprotected one every handler whose header stands on one line is reported there.

- `functionHandler`, `constantHandler`: what both searches look for.
- `exists_header`: where a route begins, the rule matches what is read.
- `Surveyor.auth_eq`: both searches ask the same question about protection.
- `Surveyor.routes_agree`: routes and findings of a route file.
-/

namespace CodeSurvey.Extract

open Text Source Pattern Security

/-! ## Headers of handlers -/

/-- The methods that the rule knows. -/
def guardedMethods : List String :=
  ["GET", "POST", "PUT", "PATCH", "DELETE"]

/-- An exported function, up to its name. -/
def functionHandler (name : Pattern) : Pattern :=
  lit "export" ++ spaces1 ++ opt (lit "async" ++ spaces1) ++ lit "function" ++ spaces1 ++ name

/-- What stands between the name of a function and its parameters, and their parenthesis. -/
def functionTail : Pattern :=
  spaces ++ (generics ++ (spaces ++ capture "paren" (lit "(")))

/-- An exported constant, up to its equals sign. -/
def constantHandler (name type : Pattern) : Pattern :=
  lit "export" ++ spaces1 ++ lit "const" ++ spaces1 ++ name ++ spaces ++ opt (lit ":" ++ type)
    ++ lit "="

/-- Routes begin lines with one of the two forms. -/
theorem reads_handlerPattern (method : String) :
    (handlerPattern method).Reads =
      (alt (lineStart ++ (functionHandler (lit method) ++ functionTail))
        (lineStart ++ constantHandler (lit method) annotation)).Reads := by
  -- The sequences are bracketed in another way, which composition forgets.
  funext s t
  simp only [handlerPattern, alts, Reads, functionHandler, functionTail, constantHandler,
    reads_seq, Relation.comp_assoc]

/-- The rule looks for the two forms at the start of a text, behind blanks. -/
theorem reads_missingAuth :
    missingAuth.pattern.Reads =
      (alt (textStart ++ (spaces ++ (functionHandler (words guardedMethods) ++ edge)))
        (textStart ++ (spaces ++
          constantHandler (words guardedMethods) (many1 (noneOf "="))))).Reads := by
  funext s t
  simp only [missingAuth, alts, Reads, functionHandler, constantHandler, guardedMethods,
    reads_seq, Relation.comp_assoc]

/-! ## Handlers under the rule -/

/-- The header of a handler: it begins with a letter, ends in the bracket or the equals sign up to
which it is read, and the rule matches every text that begins with it. -/
structure IsHeader (header : List Char) : Prop where
  first : header.head? = some 'e'
  last : header.getLast? = some '(' ∨ header.getLast? = some '='
  reported : ∀ more, missingAuth.pattern.occursIn (header ++ more) = true

theorem spaces_reads_nothing (s : State) : spaces.Reads s s :=
  ⟨s, rfl, 0, by simp, rfl⟩

theorem missingAuth_plain : missingAuth.pattern.plain = true := by
  decide

/-- What opens with the first letter of a handler and is not empty begins with it. -/
theorem head?_of_opens {p : Pattern} {s t : State} {header : List Char}
    (hopens : p.opens (·.within (.char 'e')) = true) (h : p.Reads s t)
    (hpasses : Passes s header t) (hne : header ≠ []) : header.head? = some 'e' := by
  obtain ⟨c, rest, rfl⟩ := List.exists_cons_of_ne_nil hne
  have hmem := mem_of_opens hopens h hpasses
  rw [List.head?_cons, ← beq_iff_eq.mp hmem]

/-- The name of a function ends before its tail. -/
theorem edge_between {method : String} (hmethod : method ∈ guardedMethods) {front tail : List Char}
    {w : State} (hbefore : w.before = (front ++ method.toList).reverse) (hafter : w.after = tail)
    (htail : ∃ c, tail.head? = some c ∧ isWord c = false) : edge.Reads w w := by
  refine ⟨?_, rfl⟩
  obtain ⟨c, hc, hword⟩ := htail
  -- Every method ends in a letter.
  have hlast : (method.toList.reverse.head?.map isWord) = some true := by
    simp only [guardedMethods, List.mem_cons, List.not_mem_nil, or_false] at hmethod
    rcases hmethod with rfl | rfl | rfl | rfl | rfl <;> rfl
  obtain ⟨d, hd, hdword⟩ := Option.map_eq_some_iff.mp hlast
  have hhead : w.before.head? = some d := by
    rw [hbefore, List.reverse_append, List.head?_append, hd]
    rfl
  simp only [State.holds, State.wordSides, hhead, hafter, hc, Option.map_some, hdword, hword]
  rfl

theorem functionHandler_free (method : String) : (functionHandler (lit method)).free = true := by
  rw [functionHandler, free_seq, free_lit, Bool.and_true]
  decide

theorem functionHandler_refines {method : String} (hmethod : method ∈ guardedMethods) :
    Refines (functionHandler (lit method)) (functionHandler (words guardedMethods)) :=
  (Refines.refl _).seq (refines_words hmethod)

/-- A function up to its parenthesis is a header. -/
theorem isHeader_of_function {method : String} (hmethod : method ∈ guardedMethods) {s t : State}
    (h : (functionHandler (lit method) ++ functionTail).Reads s t) :
    ∃ header, Passes s header t ∧ IsHeader header := by
  have ⟨u, hcore, htail⟩ := h
  obtain ⟨core, hpasses, hfits⟩ := hcore.exists_fits (functionHandler_free method)
  -- The name stands last, behind the words.
  obtain ⟨w, hwords, hname⟩ := hcore
  obtain ⟨front, hfront⟩ := hwords.exists_passes
  obtain rfl : core = front ++ method.toList :=
    hpasses.eq (hfront.trans (passes_of_reads_lit hname))
  -- The tail begins with no word character and ends in the parenthesis.
  obtain ⟨tail, hpasses'⟩ := htail.exists_passes
  obtain ⟨blanks, hblanks⟩ : ∃ blanks, tail = blanks ++ ['('] := by
    obtain ⟨u₁, h₁, u₂, h₂, u₃, h₃, u₄, hparen, rfl⟩ := htail
    obtain ⟨first, hfirst⟩ := h₁.exists_passes
    obtain ⟨second, hsecond⟩ := h₂.exists_passes
    obtain ⟨third, hthird⟩ := h₃.exists_passes
    have hwhole := ((hfirst.trans hsecond).trans hthird).trans (passes_of_reads_lit hparen)
    exact ⟨_, hpasses'.eq (hwhole.keep _)⟩
  have hhead : ∃ c, tail.head? = some c ∧ isWord c = false := by
    cases htext : tail with
    | nil => simp [htext] at hblanks
    | cons c rest =>
      rw [htext] at hpasses'
      have hmem : (CharSet.compl .word).mem c = true := mem_of_opens (by decide) htail hpasses'
      exact ⟨c, rfl, by simpa [CharSet.mem] using hmem⟩
  refine ⟨front ++ method.toList ++ tail, hpasses.trans hpasses', ?first, ?last, ?reported⟩
  case first =>
    exact head?_of_opens rfl h (hpasses.trans hpasses') (by simp [hblanks])
  case last =>
    left
    rw [hblanks, ← List.append_assoc, List.getLast?_append]
    rfl
  case reported =>
    intro more
    have hline : front ++ method.toList ++ tail ++ more =
        front ++ method.toList ++ (tail ++ more) := List.append_assoc _ _ _
    obtain ⟨v, hreads, hread⟩ := hfits.refine (functionHandler_refines hmethod)
      ⟨[], front ++ method.toList ++ tail ++ more, 0, []⟩ (tail ++ more) hline
    have hbefore : v.before = (front ++ method.toList).reverse := by
      rw [hread.before, List.append_nil]
    have hafter : v.after = tail ++ more :=
      List.append_cancel_left (hread.after.symm.trans hline)
    have hhead' : ∃ c, (tail ++ more).head? = some c ∧ isWord c = false := by
      obtain ⟨c, hc, hword⟩ := hhead
      exact ⟨c, by rw [List.head?_append, hc]; rfl, hword⟩
    have hedge := edge_between hmethod hbefore hafter hhead'
    apply occursIn_of_reads missingAuth_plain
    rw [reads_missingAuth]
    exact .inl ⟨_, ⟨rfl, rfl⟩, _, spaces_reads_nothing _, v, hreads, hedge⟩

/-- The type of a constant may be written more freely under the rule. -/
theorem constantHandler_refines {method : String} (hmethod : method ∈ guardedMethods) :
    Refines (constantHandler (lit method) annotation)
      (constantHandler (words guardedMethods) (many1 (noneOf "="))) := by
  -- Under the rule a type may run over several lines.
  have hset (c : Char) (h : (CharSet.compl (.ofString "=\n")).mem c = true) :
      (CharSet.compl (.ofString "=")).mem c = true := by
    simp only [CharSet.ofString, CharSet.mem] at h ⊢
    simp_all [CharSet.unions, CharSet.mem]
  have htype : Refines (opt (lit ":" ++ annotation)) (opt (lit ":" ++ many1 (noneOf "="))) :=
    ((Refines.refl _).seq ((refines_one hset).rounds true 1 none)).rounds true 0 (some 1)
  exact ((((Refines.refl _).seq (refines_words hmethod)).seq (Refines.refl _)).seq htype).seq
    (Refines.refl _)

theorem constantHandler_free (method : String) :
    (constantHandler (lit method) annotation).free = true := by
  simp only [constantHandler, free_seq, free_lit]
  decide

/-- A constant up to its equals sign is a header. -/
theorem isHeader_of_constant {method : String} (hmethod : method ∈ guardedMethods) {s t : State}
    (h : (constantHandler (lit method) annotation).Reads s t) :
    ∃ header, Passes s header t ∧ IsHeader header := by
  obtain ⟨header, hpasses, hfits⟩ := h.exists_fits (constantHandler_free method)
  have hequals : ∃ front, header = front ++ ['='] := by
    obtain ⟨u, hfront, hequals⟩ := h
    obtain ⟨front, hpasses'⟩ := hfront.exists_passes
    exact ⟨front, hpasses.eq (hpasses'.trans (passes_of_reads_lit hequals))⟩
  obtain ⟨front, rfl⟩ := hequals
  refine ⟨front ++ ['='], hpasses, ?first, ?last, ?reported⟩
  case first =>
    exact head?_of_opens rfl h hpasses (by simp)
  case last =>
    right
    rw [List.getLast?_append]
    rfl
  case reported =>
    intro more
    obtain ⟨v, hreads, -⟩ := hfits.refine (constantHandler_refines hmethod)
      ⟨[], front ++ ['='] ++ more, 0, []⟩ more rfl
    apply occursIn_of_reads missingAuth_plain
    rw [reads_missingAuth]
    exact .inr ⟨_, ⟨rfl, rfl⟩, _, spaces_reads_nothing _, hreads⟩

/-- **Headers are reported.** A route begins a line with a header, and the rule matches every text
that begins with this header. -/
theorem exists_header {method : String} (hmethod : method ∈ guardedMethods) {s t : State}
    (h : (handlerPattern method).Reads s t) :
    startsLine s.before = true ∧ ∃ header, Passes s header t ∧ IsHeader header := by
  rw [reads_handlerPattern] at h
  rcases h with ⟨u, ⟨hline, rfl⟩, h⟩ | ⟨u, ⟨hline, rfl⟩, h⟩
  · exact ⟨hline, isHeader_of_function hmethod h⟩
  · exact ⟨hline, isHeader_of_constant hmethod h⟩

/-! ## Lines of headers -/

/-- The beginning of a line is looked at if it is not longer than what is looked at of a line. -/
theorem exists_seen_append (scanner : Scanner) (header more : List Char)
    (hfits : ∀ n, scanner.longestLine = some n → (header.length : Int) ≤ n) :
    ∃ others, scanner.seen (header ++ more) = header ++ others := by
  cases hlongest : scanner.longestLine with
  | none => exact ⟨more, by rw [Scanner.seen, hlongest]⟩
  | some n =>
    have hle := hfits n hlongest
    obtain ⟨k, rfl⟩ := Int.eq_ofNat_of_zero_le (Int.le_trans (Int.natCast_nonneg _) hle)
    refine ⟨more.take (k - header.length), ?_⟩
    simp only [Scanner.seen, hlongest]
    rw [upTo_ofNat, List.take_append, List.take_of_length_le (Int.ofNat_le.mp hle)]

/-- **Routes are on reported lines.** Where a route of a known method begins, and its header stands
on one line and is looked at, the rule matches what is looked at of this line. -/
theorem exists_reported_line (scanner : Scanner) {method : String} {content : List Char} {m : Match}
    (hmethod : method ∈ guardedMethods) (hm : (handlerPattern method).search? content = some m)
    (hfeed : '\n' ∉ m.text)
    (hfits : ∀ n, scanner.longestLine = some n → (m.text.length : Int) ≤ n) :
    ∃ line, (lines content)[(LineTable.ofText content).lineAt m.start - 1]? = some line ∧
      missingAuth.pattern.occursIn (scanner.seen line) = true := by
  obtain ⟨s, t, hwithin, -, hreads, rfl⟩ := (matches_of_search? hm).exists_reads
  obtain ⟨hline, header, hpasses, hheader⟩ := exists_header hmethod hreads
  have htext := hwithin.text_match hpasses t.kept
  rw [htext] at hfeed hfits
  -- The header begins a line, which is found under its number.
  have hbefore : s.before.reverse = [] ∨ s.before.reverse.getLast? = some '\n' := by
    rw [startsLine, Bool.or_eq_true, List.isEmpty_iff, beq_iff_eq] at hline
    rcases hline with hnil | hfeed
    · exact .inl (by rw [hnil]; rfl)
    · exact .inr (by rw [List.getLast?_reverse, hfeed])
  have hlast : ∃ c, header.getLast? = some c ∧ c ≠ '\r' := by
    rcases hheader.last with hlast | hlast
    · exact ⟨_, hlast, by decide⟩
    · exact ⟨_, hlast, by decide⟩
  obtain ⟨more, hmore⟩ := exists_getElem?_lines t.after hbefore hfeed
    ⟨'e', hheader.first, by decide⟩ hlast
  rw [← hpasses.after, ← hwithin.parts, List.length_reverse, hwithin.offset] at hmore
  obtain ⟨others, hseen⟩ := exists_seen_append scanner header more hfits
  exact ⟨header ++ more, hmore, by rw [hseen]; exact hheader.reported others⟩

/-! ## Routes of route files -/

theorem isProtected_of_mem_routes {limits : Limits} {auth : Auth} {v : View} {r : Route}
    (h : r ∈ routes limits auth v) : r.isProtected = auth.protects v.content :=
  forall_mem_routes (P := fun r => r.isProtected = auth.protects v.content)
    (fun _ _ _ _ _ => rfl) (fun _ _ _ _ => rfl) (fun _ _ _ _ _ _ => rfl) r h

/-- The routes that a route file exports begin where the handler of their method is found. -/
theorem exists_match_of_mem_routes {limits : Limits} {auth : Auth} {v : View} {r : Route}
    (hfile : isRouteFile v.lowerPath = true) (h : r ∈ routes limits auth v)
    (hframework : r.framework = "nextjs") :
    ∃ m, (handlerPattern r.method).search? v.content = some m ∧ r.lineStart = v.lineAt m.start := by
  simp only [routes, hfile, if_true] at h
  rcases List.mem_append.mp h with h | h
  · obtain ⟨method, -, h⟩ := List.mem_filterMap.mp h
    obtain ⟨m, hm, rfl⟩ := Option.map_eq_some_iff.mp h
    exact ⟨m, hm, rfl⟩
  · -- Router calls belong to another framework.
    obtain ⟨m, -, rfl⟩ := List.mem_map.mp h
    have hexpress : "express" = "nextjs" := hframework
    exact absurd hexpress (by decide)

end CodeSurvey.Extract

namespace CodeSurvey.Survey

open Extract Text Security

/-! ## One question -/

/-- The rules ask the detector that they are given, and settings take rules away and add none. -/
theorem scanner_ofSettings {config : Settings} {auth : Auth} {scanner : Scanner}
    (h : Scanner.ofSettings config auth = .ok scanner) :
    scanner.outlook.auth = auth ∧ ∀ r ∈ scanner.rules, r ∈ Security.rules := by
  unfold Scanner.ofSettings at h
  simp only [bind_eq_ok, pure, Except.pure, Except.ok.injEq] at h
  obtain ⟨security, -, rfl⟩ := h
  exact ⟨rfl, fun r hr => (List.mem_filter.mp hr).1⟩

/-- **One question.** Routes and rules ask in the same way whether a file is protected. -/
theorem Surveyor.auth_eq {user : Settings} {workers : Option Int} {s : Surveyor} {x : Extractors}
    (hs : Surveyor.ofSettings user workers = .ok s) (hx : s.extractors = .ok x) :
    s.scanner.outlook.auth = x.auth := by
  obtain ⟨auth, hauth, hscanner, hextractors⟩ := Surveyor.scanner_of_ofSettings hs
  rw [hextractors, Extractors.ofSettings] at hx
  simp only [bind_eq_ok, pure, Except.pure, Except.ok.injEq] at hx
  obtain ⟨_, -, _, -, auth', hauth', rfl⟩ := hx
  rw [(scanner_ofSettings hscanner).1]
  exact Except.ok.inj (hauth.symm.trans hauth')

/-- No other rule bears the number of the check for protection. -/
theorem eq_missingAuth_of_id : ∀ r ∈ Security.rules, r.id = "SEC020" → r = missingAuth := by
  decide +kernel

/-! ## Routes and findings -/

variable {s : Surveyor} {x : Extractors} {file : SourceFile}

theorem Surveyor.mem_routes_of_mem_surveyOf {r : Route}
    (h : r ∈ (s.surveyOf x [] file).entities .routes) :
    r ∈ routes x.limits x.auth (View.ofFile (s.infoOf file) file.content.toList) := by
  rw [(s.surveyOf_spec x [] file).1, Context.left, Extractors.entitiesWithout_eq] at h
  split at h
  · contradiction
  · exact h

/-- Without failures the findings of a structural file are those of its text. -/
theorem Surveyor.findings_eq_scan (hstructural : (s.infoOf file).structural = true) :
    (s.surveyOf x [] file).findings = s.scanner.scan file.path file.content.toList := by
  rw [s.surveyOf_findings x [] file, hstructural]
  rfl

/-- In a protected file the rule finds nothing. -/
theorem Surveyor.not_reported_of_protected {user : Settings} {workers : Option Int}
    (hs : Surveyor.ofSettings user workers = .ok s) {path : String} {content : List Char}
    (hprotected : s.scanner.outlook.auth.protects content = true) {f : Finding}
    (hf : f ∈ s.scanner.scan path content) : f.rule.id ≠ "SEC020" := by
  intro hid
  obtain ⟨-, index, -, rule, hmem, -, hfinding⟩ := mem_scan_iff.mp hf
  obtain ⟨hreports, rfl⟩ := finding?_eq_some_iff.mp hfinding
  obtain ⟨auth, -, hscanner, -⟩ := Surveyor.scanner_of_ofSettings hs
  have hknown : rule ∈ Security.rules := (scanner_ofSettings hscanner).2 rule hmem
  have heq : rule = missingAuth := eq_missingAuth_of_id rule hknown hid
  subst heq
  -- Protection mitigates the check for it on every line.
  have hmitigated : missingAuth.mitigation.holds s.scanner.outlook
      ⟨s.scanner.fileOf path content, index⟩ = true := hprotected
  rw [Security.Rule.reports, hmitigated] at hreports
  simp at hreports

/-- In an unprotected route file the rule finds a handler of a known method whose header stands on
one line and is looked at. -/
theorem exists_finding_of_search? {scanner : Scanner} {path : String} {content : List Char}
    {method : String} {m : Pattern.Match} (henabled : scanner.enabled = true)
    (hrule : missingAuth ∈ scanner.rules)
    (hfile : isRouteFile (Files.anchoredLower path.toList) = true)
    (hunprotected : scanner.outlook.auth.protects content = false)
    (hmethod : method ∈ guardedMethods)
    (hm : (handlerPattern method).search? content = some m) (hfeed : '\n' ∉ m.text)
    (hfits : ∀ n, scanner.longestLine = some n → (m.text.length : Int) ≤ n) :
    ∃ f ∈ scanner.scan path content, f.rule.id = "SEC020" ∧ f.filePath = path ∧
      f.line = (LineTable.ofText content).lineAt m.start := by
  obtain ⟨line, hline, hoccurs⟩ := exists_reported_line scanner hmethod hm hfeed hfits
  -- Route files lie where the rule is applied.
  have hcovers : missingAuth.scope.covers path.toList = true := by
    rw [isRouteFile, Bool.and_eq_true] at hfile
    show containsAny _ ["/api/".toList] = true
    rw [containsAny, List.any_cons, hfile.1]
    rfl
  have hplain : missingAuth.mitigation.holds scanner.outlook
      ⟨scanner.fileOf path content, (LineTable.ofText content).lineAt m.start - 1⟩ = false :=
    hunprotected
  obtain ⟨f, hf, hfrule, hpath, hnumber⟩ :=
    exists_mem_scan henabled hrule hcovers hline hoccurs hplain
  have hone : 1 ≤ (LineTable.ofText content).lineAt m.start := by
    rw [lineAt_ofText]
    exact Nat.le_add_right 1 _
  refine ⟨f, hf, ?_, hpath, hnumber.trans (Nat.sub_add_cancel hone)⟩
  rw [hfrule]
  rfl

/-- **Routes and the check for protection agree.** In a structural route file every route tells
whether the file is protected. If it is, the rule finds nothing. If it is not, the rule finds every
handler of a known method whose header stands on one line and is looked at, under the line where the
route begins. -/
theorem Surveyor.routes_agree {user : Settings} {workers : Option Int}
    (hs : Surveyor.ofSettings user workers = .ok s) (hx : s.extractors = .ok x)
    (henabled : s.scanner.enabled = true) (hrule : missingAuth ∈ s.scanner.rules)
    (hstructural : (s.infoOf file).structural = true)
    (hfile : isRouteFile (Files.anchoredLower file.path.toList) = true) :
    (∀ r ∈ (s.surveyOf x [] file).entities .routes,
      r.isProtected = x.auth.protects file.content.toList) ∧
    ((∃ r ∈ (s.surveyOf x [] file).entities .routes, r.isProtected = true) →
      ∀ f ∈ (s.surveyOf x [] file).findings, f.rule.id ≠ "SEC020") ∧
    (x.auth.protects file.content.toList = false →
      ∀ r ∈ (s.surveyOf x [] file).entities .routes,
        r.framework = "nextjs" → r.method ∈ ["GET", "POST", "PUT", "PATCH", "DELETE"] →
        ∃ m, (handlerPattern r.method).search? file.content.toList = some m ∧
          r.lineStart = (LineTable.ofText file.content.toList).lineAt m.start ∧
          ('\n' ∉ m.text →
            (∀ n, s.scanner.longestLine = some n → (m.text.length : Int) ≤ n) →
            ∃ f ∈ (s.surveyOf x [] file).findings,
              f.rule.id = "SEC020" ∧ f.filePath = file.path ∧ f.line = r.lineStart)) := by
  have hauth := Surveyor.auth_eq hs hx
  have hprotected (r : Route) (hr : r ∈ (s.surveyOf x [] file).entities .routes) :
      r.isProtected = x.auth.protects file.content.toList :=
    isProtected_of_mem_routes (Surveyor.mem_routes_of_mem_surveyOf hr)
  rw [Surveyor.findings_eq_scan hstructural, ← hauth]
  rw [← hauth] at hprotected
  refine ⟨hprotected, ?inProtected, ?inUnprotected⟩
  case inProtected =>
    rintro ⟨r, hr, hyes⟩ f hf
    rw [hprotected r hr] at hyes
    exact Surveyor.not_reported_of_protected hs hyes hf
  case inUnprotected =>
    -- The route begins where its handler is found, and the rule is applied to this line.
    intro hno r hr hframework hmethod
    have hroute := Surveyor.mem_routes_of_mem_surveyOf hr
    obtain ⟨m, hm, hstart⟩ := exists_match_of_mem_routes hfile hroute hframework
    refine ⟨m, hm, hstart, fun hfeed hfits => ?_⟩
    rw [hstart]
    exact exists_finding_of_search? henabled hrule hfile hno hmethod hm hfeed hfits

/-- A route file with one handler. -/
def handlerFile : SourceFile :=
  { path := "src/app/api/users/route.ts"
    content := "// users\nexport async function GET(request) \x7b\n  return list()\n\x7d\n" }

/-- The handler is a route, and it is reported on the second line. -/
theorem Surveyor.routes_agree_standard :
    ∃ s x, Surveyor.ofSettings [] none = .ok s ∧ s.extractors = .ok x ∧
      ∃ r ∈ (s.surveyOf x [] handlerFile).entities .routes, r.isProtected = false ∧
        ∃ f ∈ (s.surveyOf x [] handlerFile).findings, f.rule.id = "SEC020" ∧ f.line = 2 := by
  have hfacts : ((Surveyor.ofSettings [] none).map fun s => (s.extractors.map fun x =>
      s.scanner.enabled && decide (missingAuth ∈ s.scanner.rules)
        && (s.infoOf handlerFile).structural && !x.auth.protects handlerFile.content.toList
        && decide (s.scanner.longestLine = some 2000)
        && decide (((s.surveyOf x [] handlerFile).entities .routes).map (fun r =>
          (r.framework, r.method, r.lineStart)) = [("nextjs", "GET", 2)])).toOption).toOption =
      some (some true) := by
    decide +kernel
  obtain ⟨s, hs, hseen⟩ := exists_eq_ok_of_map hfacts
  obtain ⟨x, hx, hseen⟩ := exists_eq_ok_of_map hseen
  simp only [Bool.and_eq_true, decide_eq_true_eq, Bool.not_eq_true'] at hseen
  obtain ⟨⟨⟨⟨⟨henabled, hrule⟩, hstructural⟩, hunprotected⟩, hlongest⟩, hroutes⟩ := hseen
  have hheader : ((handlerPattern "GET").search? handlerFile.content.toList).map (·.text) =
      some "export async function GET(".toList := by
    decide +kernel
  obtain ⟨r, hr, hfields⟩ := List.mem_map.mp (hroutes ▸ List.mem_cons_self)
  obtain ⟨hframework, hfields⟩ := Prod.mk.inj hfields
  obtain ⟨hmethod, hstart⟩ := Prod.mk.inj hfields
  obtain ⟨hprotected, -, hreported⟩ :=
    Surveyor.routes_agree hs hx henabled hrule hstructural (by decide)
  obtain ⟨m, hm, -, hfinding⟩ :=
    hreported hunprotected r hr hframework (by rw [hmethod]; decide)
  -- The header of the route stands on one line.
  rw [hmethod] at hm
  rw [hm] at hheader
  have htext : m.text = "export async function GET(".toList := Option.some.inj hheader
  obtain ⟨f, hf, hid, -, hline⟩ := hfinding (by rw [htext]; decide) (by
    intro n hn
    rw [hlongest] at hn
    obtain rfl := Option.some.inj hn
    rw [htext]
    decide)
  exact ⟨s, x, hs, hx, r, hr, (hprotected r hr).trans hunprotected, f, hf, hid, hline.trans hstart⟩

end CodeSurvey.Survey
