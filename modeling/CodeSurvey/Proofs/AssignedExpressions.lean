import CodeSurvey.Extract.Layers
import CodeSurvey.Extract.Routes
import CodeSurvey.Proofs.Balance
import CodeSurvey.Proofs.LineSpans
import CodeSurvey.Proofs.PlainDeclaration
import CodeSurvey.Proofs.Scans
import CodeSurvey.Proofs.Spans

/-!
# Handlers that are assigned

Where no function is declared, the code of a handler or of a middleware goes up to the end of the
expression behind the equals sign. The expression is read from the sign on, so blanks in front of it
belong to what is read, and a line feed among them ends it before it has begun.

- `ExpressionText`: texts that are one expression.
- `expressionEnd_whole`, `expressionEnd_lost`: where the expression behind a sign ends.
- `matchHere?_handler`, `matchHere?_middleware`: the headers at the start of a file.
- `assigned_expressions`: what is reported of handlers and middlewares.
- `handler_lost`: expressions of which nothing is reported.
-/

namespace CodeSurvey.Source

open Text

/-! ## Expressions -/

/-- A text without quotes that does not end with a blank. Its brackets are balanced, and they
enclose every semicolon and every line feed in it. -/
structure ExpressionText (text : List Char) : Prop where
  ends : ∃ c, text.getLast? = some c ∧ isSpace c = false
  quotes : ∀ c ∈ text, isQuote c = false
  balanced : Balanced isOpener isCloser text
  encloses : ∀ (place : Nat) (h : place < text.length), breaks text[place] = true →
    (text.take place).countP isCloser < (text.take place).countP isOpener

theorem expressionText_iff {text : List Char} : ExpressionText text ↔
    text.getLast?.any (!isSpace ·) = true ∧ text.any isQuote = false ∧
      Balanced isOpener isCloser text ∧
      ∀ (place : Nat) (h : place < text.length), breaks text[place] = true →
        (text.take place).countP isCloser < (text.take place).countP isOpener := by
  constructor
  · intro h
    obtain ⟨c, hlast, hc⟩ := h.ends
    exact ⟨by rw [hlast, Option.any_some, hc, Bool.not_false], by simpa using h.quotes, h.balanced,
      h.encloses⟩
  · rintro ⟨hends, hquotes, hbalanced, hencloses⟩
    obtain ⟨c, hlast, hc⟩ := (Option.any_eq_true _ _).mp hends
    exact ⟨⟨c, hlast, by simpa using hc⟩, by simpa using hquotes, hbalanced, hencloses⟩

instance (text : List Char) : Decidable (ExpressionText text) :=
  decidable_of_iff _ expressionText_iff.symm

variable {before blanks text rest : List Char} {ceiling : Int}

/-- A scan passes over an expression. -/
theorem ExpressionText.passOver (h : ExpressionText text) :
    passOver isOpener isCloser breaks .code 0 text = some (.code, 0) := by
  have hapart (c : Char) (hc : isOpener c = true) : isCloser c = false := isCloser_of_isOpener hc
  refine passOver_settles hapart 0 h.quotes (h.balanced.settles hapart) ?_
  intro place hplace hbreaks
  rw [Nat.zero_add]
  exact h.encloses place hplace hbreaks

/-- A scan passes over blanks without line feeds. -/
theorem passOver_blanks (hblanks : ∀ c ∈ blanks, isSpace c = true) (hline : '\n' ∉ blanks) :
    passOver isOpener isCloser breaks .code 0 blanks = some (.code, 0) := by
  -- None of the characters that the scan minds is blank, but for the line feed.
  have hmark (c : Char) (hc : c ∈ blanks) (h : isOpener c || isCloser c) : False := by
    have hspace := isSpace_of_bracket c h
    rw [hblanks c hc] at hspace
    contradiction
  have hquote (c : Char) (hc : c ∈ blanks) : isQuote c = false := by
    rw [← Bool.not_eq_true]
    intro hquote
    have hspace := hblanks c hc
    simp only [isQuote, Bool.or_eq_true, beq_iff_eq] at hquote
    rcases hquote with (rfl | rfl) | rfl <;> exact absurd hspace (by decide)
  have hends (c : Char) (hc : c ∈ blanks) : breaks c = false := by
    rw [← Bool.not_eq_true]
    intro hbreaks
    simp only [breaks, Bool.or_eq_true, beq_iff_eq] at hbreaks
    rcases hbreaks with rfl | rfl
    · exact absurd (hblanks ';' hc) (by decide)
    · exact hline hc
  refine passOver_plain (fun c hc => ⟨?_, ?_⟩) hquote fun c hc => by rw [hends c hc]; rfl
  · exact Bool.eq_false_iff.mpr fun h => hmark c hc (by simp [h])
  · exact Bool.eq_false_iff.mpr fun h => hmark c hc (by simp [h])

/-- **Whole expressions.** Behind blanks on the same line an expression is read to its end. -/
theorem expressionEnd_whole (hblanks : ∀ c ∈ blanks, isSpace c = true) (htext : ExpressionText text)
    (hline : '\n' ∉ blanks) (hceiling : (blanks.length : Int) + text.length ≤ ceiling) :
    expressionEnd (before ++ (blanks ++ (text ++ '\n' :: rest))) before.length ceiling =
      before.length + (blanks ++ text).length := by
  have hpass : passOver isOpener isCloser breaks .code 0 (blanks ++ text) = some (.code, 0) := by
    rw [passOver_append, passOver_blanks hblanks hline, Option.bind_some, htext.passOver]
  have hlength : ((blanks ++ text).length : Int) ≤ ceiling := by
    rw [List.length_append]
    omega
  have htake : window (before ++ (blanks ++ (text ++ '\n' :: rest))) before.length ceiling =
      blanks ++ text ++ ('\n' :: rest).take (ceiling.toNat - (blanks ++ text).length) := by
    rw [window, List.drop_left, ← List.append_assoc, List.take_append,
      List.take_of_length_le (by omega)]
  have hend : expressionAhead .code 0
      (('\n' :: rest).take (ceiling.toNat - (blanks ++ text).length)) = 0 := by
    cases ceiling.toNat - (blanks ++ text).length <;> rfl
  rw [expressionEnd, htake, expressionAhead_append _ _ hpass, hend, Nat.zero_add]

/-- **Lost expressions.** Where there is a line feed among the blanks, only blanks are read. -/
theorem expressionEnd_lost (hblanks : ∀ c ∈ blanks, isSpace c = true) (hline : '\n' ∈ blanks) :
    ∃ read, read <+: blanks ∧
      expressionEnd (before ++ (blanks ++ rest)) before.length ceiling =
        before.length + read.length := by
  obtain ⟨front, back, rfl, hfront⟩ := List.eq_append_cons_of_mem hline
  have hwindow : window (before ++ (front ++ '\n' :: back ++ rest)) before.length ceiling =
      front.take ceiling.toNat ++ ('\n' :: (back ++ rest)).take (ceiling.toNat - front.length) := by
    rw [window, List.drop_left, List.append_assoc, List.take_append]
    rfl
  have hpass : passOver isOpener isCloser breaks .code 0 (front.take ceiling.toNat) =
      some (.code, 0) :=
    passOver_blanks (fun c hc => hblanks c (List.mem_append_left _ (List.mem_of_mem_take hc)))
      fun hmem => hfront (List.mem_of_mem_take hmem)
  have hend : expressionAhead .code 0
      (('\n' :: (back ++ rest)).take (ceiling.toNat - front.length)) = 0 := by
    cases ceiling.toNat - front.length <;> rfl
  refine ⟨front.take ceiling.toNat, (List.take_prefix _ _).trans (List.prefix_append _ _), ?_⟩
  rw [expressionEnd, hwindow, expressionAhead_append _ _ hpass, hend, Nat.zero_add]

end CodeSurvey.Source

namespace CodeSurvey.Extract

open Text Source Pattern

/-! ## Headers -/

/-- The header of an exported constant, up to the equals sign. -/
def constantHeader (name : List Char) : List Char :=
  "export const ".toList ++ (name ++ " =".toList)

section

variable {name : List Char} (rest : List Char)

theorem constantHeader_eq (name : List Char) :
    constantHeader name = "export const ".toList ++ (name ++ " =".toList) :=
  rfl

/-- The header stands on one line and ends with the sign. -/
theorem constantHeader_line (hname : isIdentifier name = true) :
    '\n' ∉ constantHeader name ∧ (constantHeader name).getLast? = some '=' := by
  have hname := notMem_identifier hname
  rw [constantHeader_eq, List.getLast?_append, List.getLast?_append]
  simp [hname]

/-- A pattern that exports something else refuses the header of a constant. -/
theorem refuses_constantHeader {q : Pattern}
    (hq : ∀ text : List Char, text.head? = some 'c' → q.Refuses text) :
    (lit "export" ++ spaces1 ++ q).Refuses (constantHeader name ++ rest) := by
  have hparts : constantHeader name ++ rest =
      ("export".toList ++ [' ']) ++ ("const ".toList ++ (name ++ " =".toList ++ rest)) := rfl
  rw [hparts]
  exact Takes.seq_refuses (fun offset => ⟨[], takes_word "export" offset rfl⟩) (hq _ rfl)

/-- The header of a constant is read up to the equals sign. -/
theorem prefers_constantHeader (hname : isIdentifier name = true) {word p : Pattern}
    {captures : List Capture}
    (hword : ∀ text : List Char, word.Prefers "const".toList text 7 [])
    (hp : p.Prefers name (" =".toList ++ rest) 13 captures) :
    (lit "export" ++ spaces1 ++ word ++ spaces1 ++ p ++ spaces ++ opt (lit ":" ++ annotation)
      ++ lit "=").Prefers (constantHeader name) rest 0 captures := by
  have hinked : (name ++ " =".toList ++ rest).head?.any isSpace = false := by
    rw [List.append_assoc]
    exact inked_identifier hname _
  have hequals : ("=".toList ++ rest).head? = some '=' := rfl
  have hcolon : (lit ":" ++ annotation).Refuses ("=".toList ++ rest) :=
    (refuses_lit ':' rfl (by rw [hequals]; decide)).seq _
  have hblank : spaces.Prefers [' '] ("=".toList ++ rest) (13 + name.length) [] :=
    prefers_many _ rfl (List.forall_mem_singleton.mpr rfl)
  have hend := hblank.pass (Takes.skip (hcolon.opt _) (takes_lit "=" rest _).prefers)
  have hconst := (hword _).pass ((takes_spaces1 12 hinked).prefers.pass (hp.seq hend))
  exact (takes_word "export" 0 rfl).prefers.pass hconst

end

/-- Methods are identifiers. -/
theorem isIdentifier_of_mem_httpMethods {method : String} (h : method ∈ httpMethods) :
    isIdentifier method.toList = true := by
  have hall : ∀ method ∈ httpMethods, isIdentifier method.toList = true := by decide
  exact hall method h

/-- The header of a handler is matched at the start of a file. -/
theorem matchHere?_handler (subject : List Char) {method : String} (hmethod : method ∈ httpMethods)
    (rest : List Char) :
    (handlerPattern method).matchHere? subject
        ⟨[], constantHeader method.toList ++ rest, 0, []⟩ false =
      some ⟨subject, 0, (constantHeader method.toList).length, []⟩ := by
  have hname := isIdentifier_of_mem_httpMethods hmethod
  have hfunction : (lineStart ++ (lit "export" ++ spaces1 ++ (opt (lit "async" ++ spaces1)
      ++ (lit "function" ++ (spaces1 ++ lit method ++ spaces ++ generics ++ spaces
        ++ capture "paren" (lit "(")))))).Refuses (constantHeader method.toList ++ rest) := by
    apply Refuses.lineStart
    apply refuses_constantHeader rest
    intro text htext
    have hasync : (lit "async" ++ spaces1).Refuses text :=
      (refuses_lit 'a' rfl (by rw [htext]; decide)).seq _
    have hword : (lit "function").Refuses text := refuses_lit 'f' rfl (by rw [htext]; decide)
    exact hasync.opt_seq (hword.seq _)
  have hconstant := prefers_constantHeader rest hname
    (fun text => (takes_lit "const" text 7).prefers) (takes_lit method _ 13).prefers
  have hmatch := matchHere?_prefers subject (rfl : startsLine [] = true) hconstant
  rw [Nat.zero_add] at hmatch
  exact (hfunction.alt_matchHere? (s := _) _ subject false).trans hmatch

/-- The header of a middleware is the first that is found in a file. -/
theorem exists_scan_middlewareRules {name : List Char} (hname : isIdentifier name = true)
    (rest : List Char) :
    ∃ others, scan middlewareRules (constantHeader name ++ rest) =
      ⟨.expression, constantHeader name ++ rest, 0, (constantHeader name).length,
        [⟨"name", 13, 13 + name.length⟩]⟩ :: others := by
  obtain ⟨text, htext⟩ : ∃ text, text = constantHeader name ++ rest := ⟨_, rfl⟩
  -- The first rule reads declarations of functions, and the header is none; the second one reads
  -- it.
  obtain ⟨declaration, expression, hrules, hrefuses, htag, hmatch⟩ :
      ∃ declaration expression : Rule CallableForm, middlewareRules = [declaration, expression] ∧
        declaration.pattern.Refuses text ∧ expression.tag = .expression ∧
        expression.pattern.matchHere? text ⟨[], text, 0, []⟩ false =
          some ⟨text, 0, (constantHeader name).length, [⟨"name", 13, 13 + name.length⟩]⟩ := by
    refine ⟨_, _, rfl, ?_, rfl, ?_⟩
    · have hfunction : (lineStart ++ (lit "export" ++ spaces1 ++ (opt (lit "default" ++ spaces1)
          ++ (opt (lit "async" ++ spaces1) ++ (lit "function" ++ (spaces1
            ++ capture "name" identifier ++ spaces ++ generics ++ spaces
            ++ lit "(")))))).Refuses text := by
        rw [htext]
        apply Refuses.lineStart
        apply refuses_constantHeader rest
        intro text htext
        have hdefault : (lit "default" ++ spaces1).Refuses text :=
          (refuses_lit 'd' rfl (by rw [htext]; decide)).seq _
        have hasync : (lit "async" ++ spaces1).Refuses text :=
          (refuses_lit 'a' rfl (by rw [htext]; decide)).seq _
        have hword : (lit "function").Refuses text := refuses_lit 'f' rfl (by rw [htext]; decide)
        exact hdefault.opt_seq (hasync.opt_seq (hword.seq _))
      exact hfunction
    · have hidentifier : identifier.Prefers name (" =".toList ++ rest) 13 [] :=
        prefers_identifier 13 hname rfl
      have hconst (text : List Char) : (words ["const", "let"]).Prefers "const".toList text 7 [] :=
        (takes_lit "const" text 7).prefers.alts [lit "let"]
      have hheader := prefers_constantHeader rest hname hconst (hidentifier.capture "name")
      have hmatch := matchHere?_prefers text (rfl : startsLine [] = true) hheader
      rw [Nat.zero_add] at hmatch
      rw [htext] at hmatch ⊢
      exact hmatch
  rw [← htext, ← htag]
  obtain ⟨others, hothers⟩ := exists_findAll_cons hmatch
  have hrule : expression ∈ middlewareRules := by
    rw [hrules]
    exact List.mem_cons_of_mem _ List.mem_cons_self
  refine exists_scan_cons hrule (hothers ▸ List.mem_cons_self) fun r hr m hm hle => ?_
  rw [hrules, List.mem_cons, List.mem_singleton] at hr
  rcases hr with rfl | rfl
  · have hstart := hrefuses.start_ne (within_start text) rfl (matches_of_mem_findAll hm)
    exact absurd (Nat.le_zero.mp hle) hstart
  · refine ⟨rfl, ?_⟩
    have hapart := findAll_pairwise r.pattern text
    rw [hothers] at hm hapart
    rcases List.mem_cons.mp hm with rfl | hm
    · rfl
    · -- The others begin behind the header.
      have hstop := (List.pairwise_cons.mp hapart).1 m hm
      have hle := Nat.le_trans hstop hle
      contradiction

/-! ## Records -/

/-- The lines and the code that are reported of an expression in a file that begins with its header:
all of it if it begins on the line of the header and scans look that far, and nothing but the header
if it begins further down. -/
structure Assigned (limits : Limits) (kind : String) (header blanks text : List Char)
    (first last : Nat) (code : String) : Prop where
  first : first = 1
  whole : '\n' ∉ blanks → (blanks.length : Int) + text.length ≤ limits.block →
    code = String.ofList (limits.keep kind (header ++ (blanks ++ text))) ∧
      last = 1 + text.count '\n'
  lost : '\n' ∈ blanks → code = String.ofList (limits.keep kind header) ∧ last = 1

/-- Trimming leaves nothing of blanks. -/
theorem trimEnd_of_blanks {text : List Char} (h : ∀ c ∈ text, isSpace c = true) :
    trimEnd text = [] := by
  rw [trimEnd, dropEndWhile, List.reverse_eq_nil_iff, List.dropWhile_eq_nil_iff]
  exact fun c hc => h c (List.mem_reverse.mp hc)

section

variable {blanks text : List Char} (hblanks : ∀ c ∈ blanks, isSpace c = true)
  (htext : ExpressionText text)
include hblanks htext

/-- The piece of a file from its start to the end of the expression behind a header. -/
theorem assigned_pieceBetween (limits : Limits) (info : FileInfo) (kind : String)
    {header : List Char} (hline : '\n' ∉ header) (hsign : header.getLast? = some '=')
    (rest : List Char) {piece : Piece}
    (hpiece : piece =
      (View.ofFile info (header ++ (blanks ++ (text ++ '\n' :: rest)))).pieceBetween 0
        (expressionEnd (header ++ (blanks ++ (text ++ '\n' :: rest))) header.length limits.block)) :
    Assigned limits kind header blanks text piece.first piece.last
      (String.ofList (limits.keep kind piece.code)) := by
  obtain ⟨content, hcontent⟩ : ∃ content, content = header ++ (blanks ++ (text ++ '\n' :: rest)) :=
    ⟨_, rfl⟩
  have hfirst : (View.ofFile info content).lineAt 0 = 1 := by
    rw [lineAt_ofFile]
    rfl
  have hsame (code : List Char) (hcode : trimEnd (between content 0
      (expressionEnd content header.length limits.block)) = code) :
      piece = ⟨1, 1 + code.count '\n', code⟩ := by
    rw [hpiece, ← hcontent, View.pieceBetween]
    show (View.ofFile info content).piece 0 (trimEnd (between content 0 _)) = _
    rw [hcode, View.piece, hfirst]
    rfl
  have hkept (read : List Char) : trimEnd (header ++ read) = header ++ trimEnd read :=
    trimEnd_append_inked hsign (by decide) read
  refine ⟨by rw [hpiece, ← hcontent]; exact hfirst, fun hfeed hceiling => ?whole,
    fun hfeed => ?lost⟩
  case whole =>
    have hread : between content 0 (expressionEnd content header.length limits.block) =
        header ++ (blanks ++ text) := by
      rw [hcontent, expressionEnd_whole hblanks htext hfeed hceiling, between, List.drop_zero,
        Nat.sub_zero, ← List.append_assoc blanks, List.take_length_add_append, List.take_left]
    -- The expression ends with ink, so nothing is trimmed at its end.
    have htrim : trimEnd (blanks ++ text) = blanks ++ text := by
      obtain ⟨c, hc, hinked⟩ := htext.ends
      have hlast : (blanks ++ text).getLast? = some c := by
        rw [List.getLast?_append, hc, Option.some_or]
      exact trimEnd_of_inked hlast hinked
    have hcount : (header ++ (blanks ++ text)).count '\n' = text.count '\n' := by
      rw [List.count_append, List.count_append, List.count_eq_zero_of_not_mem hline,
        List.count_eq_zero_of_not_mem hfeed, Nat.zero_add, Nat.zero_add]
    rw [hsame (header ++ (blanks ++ text)) (by rw [hread, hkept, htrim]), hcount]
    exact ⟨rfl, rfl⟩
  case lost =>
    obtain ⟨read, hstarts, hend⟩ : ∃ read, read <+: blanks ∧
        expressionEnd content header.length limits.block = header.length + read.length :=
      hcontent ▸ expressionEnd_lost hblanks hfeed
    have hread : between content 0 (expressionEnd content header.length limits.block) =
        header ++ read := by
      obtain ⟨more, rfl⟩ := hstarts
      rw [hend, hcontent, between, List.drop_zero, Nat.sub_zero, List.append_assoc,
        List.take_length_add_append, List.take_left]
    -- Only blanks have been read behind the header, and these are trimmed.
    have hblank : trimEnd read = [] :=
      trimEnd_of_blanks fun c hc => hblanks c (hstarts.subset hc)
    rw [hsame header (by rw [hread, hkept, hblank, List.append_nil]),
      List.count_eq_zero_of_not_mem hline]
    exact ⟨rfl, rfl⟩

end

/-- Of what is found for keys, one with a key is left for it. -/
theorem filter_filterMap_key {α β : Type} [BEq α] [LawfulBEq α] {find : α → Option β} {key : β → α}
    {a : α} {b : β} (hkey : ∀ a b, find a = some b → key b = a) (hfound : find a = some b) :
    ∀ {keys : List α}, keys.Nodup → a ∈ keys →
      (keys.filterMap find).filter (fun other => key other == a) = [b] := by
  intro keys hnodup hmem
  have hnone (others : List α) (hothers : a ∉ others) :
      (others.filterMap find).filter (fun other => key other == a) = [] := by
    rw [List.filter_eq_nil_iff]
    intro other hother
    obtain ⟨c, hc, hfind⟩ := List.mem_filterMap.mp hother
    rw [hkey c other hfind, beq_iff_eq]
    rintro rfl
    exact hothers hc
  obtain ⟨before, behind, rfl, hbefore⟩ := List.eq_append_cons_of_mem hmem
  have hbehind : a ∉ behind := (List.nodup_cons.mp (List.nodup_append.mp hnodup).2.1).1
  rw [List.filterMap_append, List.filter_append, hnone before hbefore,
    List.filterMap_cons_some hfound,
    List.filter_cons_of_pos (by rw [hkey a b hfound, beq_self_eq_true]), hnone behind hbehind,
    List.nil_append]

section

variable (limits : Limits) {blanks text : List Char} (hblanks : ∀ c ∈ blanks, isSpace c = true)
  (htext : ExpressionText text) (rest : List Char)
include hblanks htext

/-- A route file that begins with an assigned handler has one route of its method. -/
theorem exists_route (auth : Security.Auth) (info : FileInfo)
    (hfile : isRouteFile (Files.anchoredLower info.path.toList) = true) {method : String}
    (hmethod : method ∈ httpMethods) :
    ∃ r, (routes limits auth (View.ofFile info (constantHeader method.toList ++
        (blanks ++ (text ++ '\n' :: rest))))).filter
          (fun r => r.framework == "nextjs" && r.method == method) = [r] ∧
      r.filePath = info.path ∧
      Assigned limits "route" (constantHeader method.toList) blanks text r.lineStart r.lineEnd
        r.code := by
  obtain ⟨hline, hsign⟩ := constantHeader_line (isIdentifier_of_mem_httpMethods hmethod)
  have hpiece := assigned_pieceBetween hblanks htext limits info "route" hline hsign rest rfl
  have hmatch := matchHere?_handler (constantHeader method.toList ++
    (blanks ++ (text ++ '\n' :: rest))) hmethod (blanks ++ (text ++ '\n' :: rest))
  generalize constantHeader method.toList ++ (blanks ++ (text ++ '\n' :: rest)) = content
    at hpiece hmatch ⊢
  have hsearch : (handlerPattern method).search? content = _ := searchFrom_of_matchHere? hmatch
  -- Each method has one route at most, and the routes that calls register are of another framework.
  obtain ⟨source, hsource⟩ : ∃ source : RouteSource,
      source = ⟨limits, View.ofFile info content, auth.protects content⟩ := ⟨_, rfl⟩
  have hroutes : routes limits auth (View.ofFile info content) =
      appRoutes source ++ routerRoutes source := by
    rw [hsource]
    exact congrArg (· ++ _) (if_pos hfile)
  have hrouter : (routerRoutes source).filter
      (fun r => r.framework == "nextjs" && r.method == method) = [] := by
    rw [List.filter_eq_nil_iff]
    intro r hr
    obtain ⟨m, -, rfl⟩ := List.mem_map.mp hr
    exact Bool.false_ne_true
  have happ : (appRoutes source).filter (fun r => r.framework == "nextjs" && r.method == method) =
      (appRoutes source).filter fun r => r.method == method := by
    refine List.filter_congr fun r hr => ?_
    obtain ⟨other, -, hother⟩ := List.mem_filterMap.mp hr
    obtain ⟨m, -, rfl⟩ := Option.map_eq_some_iff.mp hother
    rfl
  rw [hroutes, List.filter_append, hrouter, List.append_nil, happ]
  refine ⟨_, filter_filterMap_key ?_ (by rw [hsource]; exact congrArg (Option.map _) hsearch)
    (by decide) hmethod, rfl, hpiece⟩
  intro other r hr
  obtain ⟨m, -, rfl⟩ := Option.map_eq_some_iff.mp hr
  rfl

/-- A file that begins with an assigned middleware has it for its first one. -/
theorem exists_middleware (info : FileInfo) {name : List Char} (hname : isIdentifier name = true)
    (hconfig : name ≠ "config".toList) :
    ∃ m others, middlewares limits (View.ofFile info (constantHeader name ++
        (blanks ++ (text ++ '\n' :: rest)))) = m :: others ∧
      m.name = String.ofList name ∧ m.filePath = info.path ∧
      Assigned limits "middleware" (constantHeader name) blanks text m.lineStart m.lineEnd
        m.code := by
  obtain ⟨hline, hsign⟩ := constantHeader_line hname
  have hpiece := assigned_pieceBetween hblanks htext limits info "middleware" hline hsign rest rfl
  obtain ⟨others, hscan⟩ := exists_scan_middlewareRules hname (blanks ++ (text ++ '\n' :: rest))
  -- The name stands behind the words of the header, thirteen characters in all.
  have hgroup : between (constantHeader name ++ (blanks ++ (text ++ '\n' :: rest))) 13
      (13 + name.length) = name := by
    have hparts : constantHeader name ++ (blanks ++ (text ++ '\n' :: rest)) =
        "export const ".toList ++ (name ++ (" =".toList ++
          (blanks ++ (text ++ '\n' :: rest)))) := by
      rw [constantHeader_eq, List.append_assoc, List.append_assoc]
    rw [hparts]
    exact between_append "export const ".toList name _
  generalize constantHeader name ++ (blanks ++ (text ++ '\n' :: rest)) = content
    at hpiece hscan hgroup ⊢
  have hname : (Span.mk CallableForm.expression (Match.mk content 0 (constantHeader name).length
      [⟨"name", 13, 13 + name.length⟩])).group "name" = name := hgroup
  have hspans : (scan middlewareRules content).filter (fun s => s.group "name" != "config".toList) =
      ⟨.expression, content, 0, (constantHeader name).length, [⟨"name", 13, 13 + name.length⟩]⟩ ::
        others.filter fun s => s.group "name" != "config".toList := by
    rw [hscan, List.filter_cons_of_pos (by rw [hname]; exact bne_iff_ne.mpr hconfig)]
  refine ⟨_, _, congrArg (List.map _) hspans, congrArg String.ofList hname, rfl, hpiece⟩

end

/-- **Expressions on further lines.** What a route file exports as the handler of a method, and what
a file of middlewares exports, is reported with the whole expression behind the equals sign if that
begins on the line of the sign. If it begins further down nothing of it is reported. -/
theorem assigned_expressions (limits : Limits) {blanks text : List Char}
    (hblanks : ∀ c ∈ blanks, isSpace c = true) (htext : ExpressionText text) (rest : List Char) :
    (∀ (auth : Security.Auth) (info : FileInfo),
      isRouteFile (Files.anchoredLower info.path.toList) = true → ∀ method ∈ httpMethods,
      ∃ r, (routes limits auth (View.ofFile info (constantHeader method.toList ++
          (blanks ++ (text ++ '\n' :: rest))))).filter
            (fun r => r.framework == "nextjs" && r.method == method) = [r] ∧
        r.filePath = info.path ∧
        Assigned limits "route" (constantHeader method.toList) blanks text r.lineStart r.lineEnd
          r.code) ∧
    ∀ (info : FileInfo) (name : List Char), isIdentifier name = true → name ≠ "config".toList →
      ∃ m others, middlewares limits (View.ofFile info (constantHeader name ++
          (blanks ++ (text ++ '\n' :: rest)))) = m :: others ∧
        m.name = String.ofList name ∧ m.filePath = info.path ∧
        Assigned limits "middleware" (constantHeader name) blanks text m.lineStart m.lineEnd
          m.code :=
  ⟨fun auth info hfile _ hmethod => exists_route limits hblanks htext rest auth info hfile hmethod,
    fun info _ hname hconfig => exists_middleware limits hblanks htext rest info hname hconfig⟩

/-- An expression over several lines, behind a tab. -/
theorem assigned_expressions_tab :
    let limits : Limits := ⟨blockFallback, blockCeiling, signatureCeiling, definitionCeiling, 50,
      .ok []⟩
    let info : FileInfo := { (default : FileInfo) with path := "src/app/api/a/route.ts" }
    let text := "wrap(\x7b\n  a: 1;\n\x7d)".toList
    let file (name : String) := View.ofFile info (constantHeader name.toList ++
      (['\t'] ++ (text ++ '\n' :: "f()".toList)))
    isSpace '\t' = true ∧ ExpressionText text ∧
      isRouteFile (Files.anchoredLower info.path.toList) = true ∧
      (∃ r ∈ routes limits ⟨[]⟩ (file "GET"), r.method = "GET" ∧ r.lineEnd = 3 ∧
        r.code = "export const GET =\twrap(\x7b\n  a: 1;\n\x7d)") ∧
      ∃ m ∈ middlewares limits (file "auth"), m.name = "auth" ∧ m.lineEnd = 3 ∧
        m.code = "export const auth =\twrap(\x7b\n  a: 1;\n\x7d)" := by
  intro limits info text file
  have hblanks : ∀ c ∈ ['\t'], isSpace c = true := List.forall_mem_singleton.mpr rfl
  have htext : ExpressionText text := by decide +kernel
  have hfile : isRouteFile (Files.anchoredLower info.path.toList) = true := by decide +kernel
  have hline : '\n' ∉ ['\t'] := by decide
  have hceiling : ((['\t'].length : Nat) : Int) + text.length ≤ limits.block := by decide +kernel
  obtain ⟨hroutes, hmiddlewares⟩ := assigned_expressions limits hblanks htext "f()".toList
  obtain ⟨r, hr, -, hroute⟩ := hroutes ⟨[]⟩ info hfile "GET" (by decide)
  obtain ⟨m, others, hm, hname, -, hmiddleware⟩ :=
    hmiddlewares info "auth".toList (by decide) (by decide)
  obtain ⟨hcode, hlast⟩ := hroute.whole hline hceiling
  obtain ⟨hcode', hlast'⟩ := hmiddleware.whole hline hceiling
  have hmem := List.mem_filter.mp (hr ▸ List.mem_singleton_self r)
  have hmethod : r.method = "GET" := by
    have h := hmem.2
    rw [Bool.and_eq_true, beq_iff_eq, beq_iff_eq] at h
    exact h.2
  refine ⟨by decide, htext, hfile, ⟨r, hmem.1, hmethod, hlast, ?_⟩, m, hm ▸ List.mem_cons_self,
    ?_, hlast', ?_⟩
  · rw [hcode]
    rfl
  · rw [hname, String.ofList_toList]
  · rw [hcode']
    rfl

/-- **Lost expressions.** A handler and a middleware of which only the header is reported, since the
expression begins on the next line. -/
theorem handler_lost :
    let limits : Limits := ⟨blockFallback, blockCeiling, signatureCeiling, definitionCeiling, 50,
      .ok []⟩
    let info : FileInfo := { (default : FileInfo) with path := "src/app/api/a/route.ts" }
    let text := "handler(x)".toList
    (∀ c ∈ "\n  ".toList, isSpace c = true) ∧ ExpressionText text ∧
      isRouteFile (Files.anchoredLower info.path.toList) = true ∧
      (routes limits ⟨[]⟩ (View.ofFile info "export const GET =\n  handler(x)\n".toList)).map
        (fun r => (r.method, r.lineEnd, r.code)) = [("GET", 1, "export const GET =")] ∧
      (middlewares limits (View.ofFile info "export const auth =\n  handler(x)\n".toList)).map
        (fun m => (m.name, m.lineEnd, m.code)) = [("auth", 1, "export const auth =")] :=
  ⟨List.all_eq_true.mp rfl, by decide +kernel, by decide +kernel, by decide +kernel,
    by decide +kernel⟩

end CodeSurvey.Extract
