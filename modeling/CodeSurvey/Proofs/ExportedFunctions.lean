import CodeSurvey.Extract.Components
import CodeSurvey.Proofs.Assembly
import CodeSurvey.Proofs.Attempts
import CodeSurvey.Proofs.FunctionExtents
import CodeSurvey.Proofs.Headers

/-!
# Hooks and components are functions

Hooks and components are read by rules of their own. Whatever these rules find is found by the rules
for functions too: the same form of header at the same place, with the same name, and hence the same
lines and the same code.

- `exportedFront_covers`, `exportedTail_covers`: an exported header is the header of a function.
- `exportsAt_of_reads`: where it begins, a line exports.
- `exists_functionExtent`: what extends from an exported header extends from that of a function.
- `Surveyor.exported_listed`: hooks and components are listed as functions.
-/

namespace CodeSurvey.Extract

open Text Source Pattern

/-! ## Exported headers -/

/-- The words between the one for exports and an exported name. -/
def exportedWords : CallableForm → Pattern
  | .declaration =>
    opt (lit "default" ++ spaces1) ++ (opt (capture "async" (lit "async" ++ spaces1))
      ++ (lit "function" ++ spaces1))
  | .arrow | .bareArrow | .expression => lit "const" ++ spaces1

/-- What stands before an exported name. -/
def exportedFront (f : CallableForm) : Pattern :=
  lineStart ++ (lit "export" ++ (spaces1 ++ exportedWords f))

/-- What stands between the name of an exported constant and the equals sign, if a type may. -/
def exportedTyped : Pattern :=
  spaces ++ opt (lit ":" ++ capture "annotation" annotation)

/-- What stands before the end of an exported function expression, behind the equals sign. It is no
generator. -/
def exportedExpression : Pattern :=
  spaces ++ (opt (capture "async" (lit "async" ++ spaces1)) ++ (lit "function" ++ (edge ++ (spaces
    ++ (opt identifier ++ (spaces ++ (generics ++ spaces)))))))

/-- What stands behind an exported name. -/
def exportedTail (f : CallableForm) : Pattern :=
  match f with
  | .declaration | .bareArrow => headerTail f
  | .arrow => exportedTyped ++ (lit "=" ++ (beforeEnd f ++ lit (headerEnd f)))
  | .expression => exportedTyped ++ (lit "=" ++ (exportedExpression ++ lit (headerEnd f)))

/-- Every form of an exported callable is a header. -/
theorem reads_exportedRules (name : Pattern) : ∀ r ∈ exportedRules name,
    r.pattern.Reads = (header (exportedFront r.tag) name (exportedTail r.tag)).Reads := by
  intro r hr
  simp only [exportedRules, List.mem_cons, List.not_mem_nil, or_false] at hr
  rcases hr with rfl | rfl | rfl | rfl <;>
    simp only [exportedConstant, header, exportedFront, exportedWords, exportedTail, exportedTyped,
      exportedExpression, headerTail, typed, beforeEnd, headerEnd, reads_seq, Relation.comp_assoc]

/-- One blank is more than none. -/
theorem spaces1_covers : Covers spaces1 spaces := by
  rintro s s' t hsame ⟨u, ⟨v, hfirst, hone⟩, further, -, hrest⟩
  obtain rfl : u = v := hone
  have hall : spaces.Reads s t := ⟨s, rfl, further + 1, by simp, u, hfirst, hrest⟩
  exact Covers.refl rfl s s' t hsame hall

/-- What stands before an exported name may stand before the name of a function. -/
theorem exportedFront_covers (f : CallableForm) : Covers (exportedFront f) (headerFront f) := by
  cases f with
  | declaration =>
    have hparts : (exportedFront .declaration).Reads = ((lineStart ++ ((lit "export" ++ spaces1
        ++ opt (lit "default" ++ spaces1)) ++ opt (capture "async" (lit "async" ++ spaces1))))
        ++ (lit "function" ++ spaces1)).Reads := by
      simp only [exportedFront, exportedWords, reads_seq, Relation.comp_assoc]
    have hexport : Covers (lit "export" ++ spaces1 ++ opt (lit "default" ++ spaces1))
        (opt (capture "export" (lit "export" ++ spaces1 ++ opt (lit "default" ++ spaces1)))) :=
      ((Covers.refl rfl).capture "export").opt
    have hasync : Covers (opt (capture "async" (lit "async" ++ spaces1)))
        (opt (lit "declare" ++ spaces1) ++ opt (capture "async" (lit "async" ++ spaces1))) :=
      (Covers.refl rfl).skip _ _ _
    have hblanks : Covers spaces1 (spaces ++ (opt (lit "*") ++ spaces)) :=
      (spaces1_covers.skip _ _ _).skip _ _ _
    have hstart : Covers lineStart lineStart := Covers.refl rfl
    have hword : Covers (lit "function") (lit "function") := Covers.refl rfl
    rw [Covers, hparts]
    exact (hstart.seq (hexport.seq hasync)).seq (hword.seq hblanks)
  | _ =>
    have hparts : (exportedFront .arrow).Reads =
        ((lineStart ++ (lit "export" ++ spaces1)) ++ (lit "const" ++ spaces1)).Reads := by
      simp only [exportedFront, exportedWords, reads_seq, Relation.comp_assoc]
    have hexport : Covers (lit "export" ++ spaces1) (opt (capture "export" (lit "export"
        ++ spaces1))) := ((Covers.refl rfl).capture "export").opt
    have hconst : Covers (lit "const") (words ["const", "let", "var"]) :=
      (refines_words List.mem_cons_self).covers (by decide)
    have hstart : Covers lineStart lineStart := Covers.refl rfl
    have hblanks : Covers spaces1 spaces1 := Covers.refl rfl
    show StepCovers (exportedFront .arrow).Reads (headerFront .arrow).Reads
    rw [hparts]
    exact (hstart.seq hexport).seq (hconst.seq hblanks)

/-- What stands behind an exported name may stand behind the name of a function. -/
theorem exportedTail_covers (f : CallableForm) : Covers (exportedTail f) (headerTail f) := by
  have htyped : Covers exportedTyped (spaces ++ opt (lit ":" ++ annotation)) := by
    have hsign : Covers (lit ":") (lit ":") := Covers.refl rfl
    have htype : Covers (lit ":" ++ capture "annotation" annotation) (lit ":" ++ annotation) :=
      hsign.seq ((Covers.refl rfl).of_capture "annotation")
    have hblanks : Covers spaces spaces := Covers.refl rfl
    exact hblanks.seq (htype.rounds true 0 (some 1))
  have hequals : Covers (lit "=") (lit "=") := Covers.refl rfl
  have hend : Covers (lit (headerEnd f)) (lit (headerEnd f)) := by
    cases f <;> exact Covers.refl rfl
  cases f with
  | declaration => exact Covers.refl rfl
  | bareArrow => exact Covers.refl rfl
  | arrow =>
    have hbefore : Covers (beforeEnd .arrow) (beforeEnd .arrow) := Covers.refl rfl
    exact htyped.seq (hequals.seq (hbefore.seq hend))
  | expression =>
    -- Only the star of a generator is missing.
    have hbehind : Covers (spaces ++ (opt identifier ++ (spaces ++ (generics ++ spaces)))) (spaces
        ++ (opt (lit "*") ++ (spaces ++ (opt identifier ++ (spaces ++ (generics ++ spaces)))))) :=
      ((Covers.refl rfl).skip _ _ _).skip _ _ _
    have hedge : Covers edge edge := Covers.refl rfl
    have hword : Covers (lit "function") (lit "function") := Covers.refl rfl
    have hasync : Covers (opt (capture "async" (lit "async" ++ spaces1)))
        (opt (capture "async" (lit "async" ++ spaces1))) := Covers.refl rfl
    have hblanks : Covers spaces spaces := Covers.refl rfl
    have hbefore : Covers exportedExpression (beforeEnd .expression) :=
      hblanks.seq (hasync.seq (hword.seq (hedge.seq hbehind)))
    exact htyped.seq (hequals.seq (hbefore.seq hend))

/-! ## Names -/

/-- Whether the pattern reads identifiers only. -/
def readsIdentifiers (name : Pattern) : Bool :=
  name.throughout (·.within identifierRest) && name.opens (·.within identifierStart)
    && name.surely fun _ => true

/-- What reads identifiers is covered by the pattern for them. -/
theorem covers_identifier {name : Pattern} (hname : readsIdentifiers name = true) :
    Covers name identifier := by
  rw [readsIdentifiers, Bool.and_eq_true, Bool.and_eq_true] at hname
  obtain ⟨⟨hall, hopens⟩, hsurely⟩ := hname
  intro s s' t hsame hreads
  obtain ⟨first, others, hpasses⟩ := exists_cons_of_reads hsurely hreads
  have hfirst := mem_of_opens hopens hreads hpasses
  have hrest : ∀ c ∈ others, identifierRest.mem c = true :=
    fun c hc => mem_of_throughout hall hreads hpasses (List.mem_cons_of_mem first hc)
  -- The first character is read by itself, the others round by round.
  have hafter : s'.after = first :: (others ++ t.after) := hsame.after ▸ hpasses.after
  have hnext : (s'.pass first (others ++ t.after)).after = others ++ t.after := rfl
  obtain ⟨t', hrounds, hpasses'⟩ := rounds_one hrest hnext
  have hwhole : Passes s' (first :: others) t' := (Passes.pass hafter).trans hpasses'
  refine ⟨t', ⟨_, ⟨first, _, hafter, hfirst, rfl⟩, _, rfl, others.length, by simp, hrounds⟩, ?_⟩
  exact hsame.of_passes hpasses hwhole

/-- Names of hooks and of components are identifiers. -/
theorem readsIdentifiers_hookName : readsIdentifiers hookName = true := by
  decide +kernel

theorem readsIdentifiers_componentName : readsIdentifiers componentName = true := by
  decide +kernel

/-! ## Where headers begin -/

/-- An exported header begins a line that exports. -/
theorem exportsAt_of_reads {f : CallableForm} {s t : State} (h : (exportedFront f).Reads s t) :
    ExportsAt s := by
  obtain ⟨_, ⟨hline, rfl⟩, u, hexport, v, hspaces, hwords⟩ := h
  have hopens : (exportedWords f).opens (·.within .word) = true := by cases f <;> decide
  have hsurely : (exportedWords f).surely (fun _ => true) = true := by cases f <;> decide
  have hblank : spaces1.surely (fun _ => true) = true := by decide
  have hblanks : spaces1.throughout (·.within .space) = true := by decide
  obtain ⟨b, blanks, hpasses⟩ := exists_cons_of_reads hblank hspaces
  obtain ⟨c, rest, htext⟩ := exists_cons_of_reads hsurely hwords
  refine ⟨hline, b :: blanks, c, rest ++ t.after, ?_, List.cons_ne_nil b blanks, ?_, ?_⟩
  · rw [(passes_of_reads_lit hexport).after, hpasses.after, htext.after]
    rfl
  · exact fun d hd => mem_of_throughout hblanks hspaces hpasses hd
  · exact mem_of_opens hopens hwords htext

/-- No header of a function that begins before a line that exports runs over its start. -/
theorem stop_le_of_exportsAt {r : Rule CallableForm} (hr : r ∈ functionRules) {text : List Char}
    {m : Match} (hm : r.pattern.Matches text text m) {place : State} (hplace : Within text place)
    (hexports : ExportsAt place) (hbefore : m.start < place.offset) : m.stop ≤ place.offset := by
  obtain ⟨s, t, hwithin, -, hreads, rfl⟩ := hm.exists_reads
  rw [reads_functionRules r hr] at hreads
  obtain ⟨read, hpasses⟩ := hreads.exists_passes
  by_contra hover
  have hfirst := hwithin.passes_between hplace (Nat.le_of_lt hbefore)
  have hrest := hplace.passes_between (hwithin.passes hpasses) (Nat.le_of_not_le hover)
  have hne : between text place.offset t.offset ≠ [] := by
    intro hnil
    have hoffset := hrest.offset
    rw [hnil, List.length_nil] at hoffset
    exact hover (Nat.le_of_eq hoffset)
  exact clearBehind_header r.tag s t place hreads ⟨_, _, hfirst, hrest, hne⟩ hbefore hexports

/-! ## Spans -/

/-- An exported header is read as the header of a function of the same form. -/
theorem HeaderParts.function {f : CallableForm} {name : Pattern} {s u v t : State}
    (h : HeaderParts (exportedFront f) name (exportedTail f) s u v t)
    (hname : readsIdentifiers name = true) :
    ∃ u' v' t', HeaderParts (headerFront f) identifier (headerTail f) s u' v' t' ∧
      SamePlace u u' ∧ SamePlace v v' ∧ SamePlace t t' := by
  obtain ⟨u', hfront, hu⟩ := exportedFront_covers f s s u (SamePlace.refl s s.kept) h.front
  obtain ⟨v', hword, hv⟩ := covers_identifier hname u u' v hu h.name
  obtain ⟨t', htail, ht⟩ := exportedTail_covers f _ _ t (hv.keep _ _) h.tail
  exact ⟨u', v', t', ⟨hfront, hword, htail⟩, hu, hv, ht⟩

section

variable {f : CallableForm} {text : List Char} {place u v t : State}

/-- Where the header of a function is read in a line that exports, the rules for functions keep
something. -/
theorem exists_mem_scan_of_header (hwithin : Within text place) (hkept : place.kept = [])
    (hexports : ExportsAt place)
    (h : HeaderParts (headerFront f) identifier (headerTail f) place u v t) :
    ∃ found ∈ scan functionRules text, found.start = place.offset := by
  have hrule : ∃ r ∈ functionRules, r.tag = f := by cases f <;> simp [functionRules]
  obtain ⟨rule, hrule, hform⟩ := hrule
  have hplain : ∀ r ∈ functionRules, r.pattern.plain = true ∧
      r.pattern.surely (fun _ => true) = true := by decide
  have hread : rule.pattern.Reads place t := by
    rw [reads_functionRules rule hrule, hform]
    exact reads_header_iff.mpr ⟨u, v, h⟩
  -- Nothing that begins before the line runs over its start.
  have hclear (r : Rule CallableForm) (hr : r ∈ functionRules) (m : Match)
      (hm : r.pattern.Matches text text m) (hbefore : m.start < place.offset) :
      m.stop ≤ place.offset := stop_le_of_exportsAt hr hm hwithin hexports hbefore
  apply exists_mem_scan
  · exact fun r hr m hm => hclear r hr m (matches_of_mem_findAll hm)
  · exact ⟨rule, hrule, exists_mem_findAll (hplain rule hrule).1 (hplain rule hrule).2 hwithin
      hkept hread (hclear rule hrule)⟩

/-- What the rules for functions keep at a place where a header is read is that header. -/
theorem span_of_header (hwithin : Within text place) (hkept : place.kept = [])
    (h : HeaderParts (headerFront f) identifier (headerTail f) place u v t)
    {found : Span CallableForm} (hfound : found ∈ scan functionRules text)
    (hstart : found.start = place.offset) :
    found.tag = f ∧ found.stop = t.offset ∧
      found.group "name" = between text u.offset v.offset := by
  obtain ⟨r, hr, htag, hmatches⟩ := exists_rule_of_mem_scan hfound
  obtain ⟨s, t', hwithin', hkept', hreads, hm⟩ := hmatches.exists_reads
  rw [reads_functionRules r hr] at hreads
  obtain ⟨u', v', hparts⟩ := reads_header_iff.mp hreads
  have hoffset : s.offset = place.offset := by rw [← hstart, Span.start, hm]
  obtain rfl := hwithin'.eq hwithin hoffset (hkept'.trans hkept.symm)
  -- The form and the places are settled by the text.
  have hform := hparts.form_eq h (SamePlace.refl s s.kept)
  rw [hform] at hparts
  obtain ⟨hu, hv, ht⟩ := hparts.same h (SamePlace.refl s s.kept)
  have htail : (headerTail f).plain = true := by cases f <;> decide
  have hkeys : "name" ∉ (headerTail f).keys := by cases f <;> decide
  refine ⟨htag.trans hform, ?_, ?_⟩
  · rw [Span.stop, hm]
    exact ht.offset
  · rw [Span.group, Span.group?, hm, hparts.group? htail hkeys, hu.offset, hv.offset]
    rfl

end

/-- **Exported headers.** Where a rule for exported callables finds a header, the rules for
functions find the same. -/
theorem exists_functionSpan {name : Pattern} (hname : readsIdentifiers name = true)
    {text : List Char} {s : Span CallableForm} (hs : s ∈ scan (exportedRules name) text) :
    ∃ found ∈ scan functionRules text, found.tag = s.tag ∧ found.start = s.start ∧
      found.stop = s.stop ∧ found.group "name" = s.group "name" := by
  obtain ⟨r, hr, htag, hmatches⟩ := exists_rule_of_mem_scan hs
  obtain ⟨place, t, hwithin, hkept, hreads, hm⟩ := hmatches.exists_reads
  rw [reads_exportedRules name r hr] at hreads
  obtain ⟨u, v, hparts⟩ := reads_header_iff.mp hreads
  obtain ⟨u', v', t', hfunction, hu, hv, ht⟩ := hparts.function hname
  -- The same header is found at this place, and nothing else is.
  obtain ⟨found, hfound, hstart⟩ :=
    exists_mem_scan_of_header hwithin hkept (exportsAt_of_reads hparts.front) hfunction
  obtain ⟨hform, hstop, hgroup⟩ := span_of_header hwithin hkept hfunction hfound hstart
  have htail : (exportedTail r.tag).plain = true := by cases r.tag <;> decide
  have hkeys : "name" ∉ (exportedTail r.tag).keys := by cases r.tag <;> decide
  refine ⟨found, hfound, hform.trans htag.symm, ?_, ?_, ?_⟩
  · rw [hstart, Span.start, hm]
  · rw [hstop, Span.stop, hm]
    exact ht.offset.symm
  · rw [hgroup, Span.group, Span.group?, hm, hparts.group? htail hkeys, hu.offset, hv.offset]
    rfl

/-! ## Extents -/

/-- The form and the end of a header settle where the callable behind it stops. -/
theorem callableOf_stop (limits : Limits) (content : List Char) {s s' : Span CallableForm}
    (htag : s.tag = s'.tag) (hstop : s.stop = s'.stop) :
    (callableOf limits content s).map (·.stop) = (callableOf limits content s').map (·.stop) := by
  rw [callableOf, callableOf, htag, hstop]
  -- Only a bare parameter is taken from the header itself.
  split <;> rfl

/-- **Exported callables are functions.** What extends from an exported header extends from the
header of a function with the same name. -/
theorem exists_functionExtent {limits : Limits} {content : List Char} {name : Pattern}
    (hname : readsIdentifiers name = true) {s : Span CallableForm} {c : Callable}
    (h : (s, c) ∈ exportedCallables limits content name) :
    ∃ e ∈ functionExtents limits content, e.1.start = s.start ∧ e.2.stop = c.stop ∧
      e.1.group "name" = s.group "name" := by
  obtain ⟨s', hs, h⟩ := List.mem_filterMap.mp h
  obtain ⟨c', hc, heq⟩ := Option.map_eq_some_iff.mp h
  obtain ⟨rfl, rfl⟩ := Prod.mk.inj heq
  obtain ⟨found, hfound, htag, hstart, hstop, hgroup⟩ := exists_functionSpan hname hs
  have hstops := callableOf_stop limits content htag hstop
  rw [hc] at hstops
  obtain ⟨d, hd, hdstop⟩ := Option.map_eq_some_iff.mp hstops
  refine ⟨(found, d), List.mem_filterMap.mpr ⟨found, hfound, ?_⟩, hstart, hdstop, hgroup⟩
  rw [hd, Option.map_some]

/-- The function stands under this name in these lines of this file. Both codes are the same text,
each as far as the limit for its kind lets it be kept; where none of the limits cuts it, they are
equal. -/
structure ListedAs (limits : Limits) (kind : String) (f : Function) (name filePath : String)
    (lineStart lineEnd : Nat) (code : String) : Prop where
  name : f.name = name
  filePath : f.filePath = filePath
  lineStart : f.lineStart = lineStart
  lineEnd : f.lineEnd = lineEnd
  code : ∃ whole, f.code = String.ofList (limits.keep "function" whole) ∧
    code = String.ofList (limits.keep kind whole) ∧
    (limits.keep "function" whole = whole → limits.keep kind whole = whole → f.code = code)

/-- A record of what extends from an exported header is listed as a function. -/
theorem exists_listedAs {limits : Limits} {v : View} {name : Pattern}
    (hname : readsIdentifiers name = true) {s : Span CallableForm} {c : Callable}
    (h : (s, c) ∈ exportedCallables limits v.content name) (kind : String) :
    ∃ f ∈ functions limits v, ListedAs limits kind f (String.ofList (s.group "name")) v.path
      (v.pieceBetween s.start c.stop).first (v.pieceBetween s.start c.stop).last
      (String.ofList (limits.keep kind (v.pieceBetween s.start c.stop).code)) := by
  obtain ⟨e, he, hstart, hstop, hgroup⟩ := exists_functionExtent hname h
  refine ⟨functionOf limits v e, ?_, ?_⟩
  · rw [functions_eq_map]
    exact List.mem_map_of_mem he
  · have hpiece : v.pieceBetween e.1.start e.2.stop = v.pieceBetween s.start c.stop := by
      rw [hstart, hstop]
    have hcode : (functionOf limits v e).code =
        String.ofList (limits.keep "function" (v.pieceBetween s.start c.stop).code) := by
      simp only [functionOf, buildFunction, hpiece]
    constructor
    case name => simp only [functionOf, buildFunction, hgroup]
    case filePath => rfl
    case lineStart => simp only [functionOf, buildFunction, hpiece]
    case lineEnd => simp only [functionOf, buildFunction, hpiece]
    case code =>
      refine ⟨_, hcode, rfl, fun hfunction hkind => ?_⟩
      rw [hcode, hfunction, hkind]

theorem hook_listed {limits : Limits} {v : View} {hook : Hook} (h : hook ∈ hooks limits v) :
    ∃ f ∈ functions limits v, ListedAs limits "hook" f hook.name hook.filePath hook.lineStart
      hook.lineEnd hook.code := by
  obtain ⟨⟨s, c⟩, hs, rfl⟩ := List.mem_map.mp h
  exact exists_listedAs readsIdentifiers_hookName hs "hook"

theorem component_listed {limits : Limits} {types : DeclaredTypes} {v : View}
    {component : Component} (h : component ∈ components limits types v) :
    ∃ f ∈ functions limits v, ListedAs limits "component" f component.name component.filePath
      component.lineStart component.lineEnd component.code := by
  obtain ⟨⟨s, c⟩, hs, rfl⟩ := List.mem_map.mp h
  exact exists_listedAs readsIdentifiers_componentName hs "component"

end CodeSurvey.Extract

namespace CodeSurvey.Survey

open Extract

variable {s : Surveyor} {x : Extractors} {file : SourceFile}

/-- Whether there are entities of a kind that keeps code does not depend on other kinds. -/
theorem isEmpty_found {v : View} {k : Kind} (hk : k.keepsCode = true) (given given' : Entities) :
    (x.found v given k).isEmpty = (x.found v given' k).isEmpty := by
  cases k with
  | services | controllers | utilities | models => contradiction
  | components => exact isEmpty_components x.limits _ _ v
  | _ => rfl

/-- A kind that keeps code and is not empty belongs to the file, and the settings let code be
kept. -/
theorem Surveyor.mem_surveyOf {k : Kind} (hk : k.keepsCode = true) {e : k.Entity}
    (h : e ∈ (s.surveyOf x [] file).entities k) :
    let v := View.ofFile (s.infoOf file) file.content.toList
    x.appliesTo v k = true ∧ (∃ entries, x.limits.code = .ok entries) ∧
      ∃ given, e ∈ x.found v given k := by
  intro v
  rw [(s.surveyOf_spec x [] file).1, Context.left, Extractors.entitiesWithout_eq] at h
  split at h
  · contradiction
  · rename_i hgone
    rw [Bool.or_eq_true, not_or, Bool.not_eq_true, Bool.not_eq_true', Bool.not_eq_false] at hgone
    obtain ⟨hworks, happlies⟩ := hgone
    refine ⟨happlies, ?_, _, h⟩
    -- If code could not be kept, the kind would have failed.
    cases hcode : x.limits.code with
    | ok entries => exact ⟨entries, rfl⟩
    | error problem =>
      have hfound : (x.found v Entities.none k).isEmpty = false := by
        rw [isEmpty_found hk _ (x.entitiesWithout v (s.contextOf x [] file).fails)]
        exact List.isEmpty_eq_false_iff_exists_mem.mpr ⟨e, h⟩
      have hfails : (s.contextOf x [] file).fails k = true := by
        rw [Context.fails, Context.failure?, if_pos happlies]
        show (x.unkept? v k).isSome = true
        simp only [Extractors.unkept?, hcode, hk, hfound, Bool.not_false, Bool.and_self, if_true,
          Option.isSome_some]
      rw [hworks] at hfails
      contradiction

/-- Where code is kept, the functions of a structural file are those of its text. -/
theorem Surveyor.functions_surveyOf (hstructural : (s.infoOf file).structural = true)
    (hcode : ∃ entries, x.limits.code = .ok entries) :
    (s.surveyOf x [] file).entities .functions =
      functions x.limits (View.ofFile (s.infoOf file) file.content.toList) := by
  obtain ⟨entries, hcode⟩ := hcode
  exact s.surveyOf_entities x file hstructural (by rw [Extractors.unkept?, hcode])

/-- **Hooks and components are functions.** Each hook and each component of a file is listed among
the functions of the file: under the same name, in the same lines, and with the same code but for
the limits on code. -/
theorem Surveyor.exported_listed (s : Surveyor) (x : Extractors) (file : SourceFile) :
    (∀ hook ∈ (s.surveyOf x [] file).entities .hooks,
      ∃ f ∈ (s.surveyOf x [] file).entities .functions,
        ListedAs x.limits "hook" f hook.name hook.filePath hook.lineStart hook.lineEnd
          hook.code) ∧
    (∀ component ∈ (s.surveyOf x [] file).entities .components,
      ∃ f ∈ (s.surveyOf x [] file).entities .functions,
        ListedAs x.limits "component" f component.name component.filePath component.lineStart
          component.lineEnd component.code) := by
  constructor
  · intro hook hhook
    obtain ⟨hstructural, hcode, _, hfound⟩ := Surveyor.mem_surveyOf rfl hhook
    rw [Surveyor.functions_surveyOf hstructural hcode]
    exact hook_listed hfound
  · intro component hcomponent
    obtain ⟨happlies, hcode, _, hfound⟩ := Surveyor.mem_surveyOf rfl hcomponent
    have hstructural : (s.infoOf file).structural = true := (Bool.and_eq_true_iff.mp happlies).1
    rw [Surveyor.functions_surveyOf hstructural hcode]
    exact component_listed hfound

/-- A file with a hook and a component whose headers are spread over lines. -/
def exportingFile : SourceFile :=
  { path := "src/card.tsx"
    content := "export function\nuseCard(id) \x7b\n  return id\n\x7d\n"
      ++ "export const Card\n  : FC = () => null\n" }

/-- Both are listed as functions, in the lines in which they stand. -/
theorem Surveyor.exported_listed_standard :
    ∃ s x, Surveyor.ofSettings [] none = .ok s ∧ s.extractors = .ok x ∧
      (∃ hook ∈ (s.surveyOf x [] exportingFile).entities .hooks,
        ∃ f ∈ (s.surveyOf x [] exportingFile).entities .functions,
          hook.name = "useCard" ∧ f.name = "useCard" ∧ f.lineStart = 1 ∧ f.lineEnd = 4) ∧
      (∃ component ∈ (s.surveyOf x [] exportingFile).entities .components,
        ∃ f ∈ (s.surveyOf x [] exportingFile).entities .functions,
          component.name = "Card" ∧ f.name = "Card" ∧ f.lineStart = 5 ∧ f.lineEnd = 6) := by
  have hfacts : ((Surveyor.ofSettings [] none).map fun s => (s.extractors.map fun x =>
      decide (((s.surveyOf x [] exportingFile).entities .hooks).map (fun h =>
          (h.name, h.lineStart, h.lineEnd)) = [("useCard", 1, 4)])
        && decide (((s.surveyOf x [] exportingFile).entities .components).map (fun c =>
          (c.name, c.lineStart, c.lineEnd)) = [("Card", 5, 6)])).toOption).toOption =
      some (some true) := by
    decide +kernel
  obtain ⟨s, hs, hseen⟩ := exists_eq_ok_of_map hfacts
  obtain ⟨x, hx, hseen⟩ := exists_eq_ok_of_map hseen
  rw [Bool.and_eq_true, decide_eq_true_eq, decide_eq_true_eq] at hseen
  obtain ⟨hhooks, hcomponents⟩ := hseen
  obtain ⟨hook, hhook, hlines⟩ := List.mem_map.mp (hhooks ▸ List.mem_cons_self)
  obtain ⟨component, hcomponent, hlines'⟩ := List.mem_map.mp (hcomponents ▸ List.mem_cons_self)
  obtain ⟨f, hf, hlisted⟩ := (Surveyor.exported_listed s x exportingFile).1 hook hhook
  obtain ⟨g, hg, hlisted'⟩ :=
    (Surveyor.exported_listed s x exportingFile).2 component hcomponent
  simp only [Prod.mk.injEq] at hlines hlines'
  obtain ⟨hname, hfirst, hlast⟩ := hlines
  obtain ⟨hname', hfirst', hlast'⟩ := hlines'
  refine ⟨s, x, hs, hx, ⟨hook, hhook, f, hf, hname, ?_, ?_, ?_⟩,
    ⟨component, hcomponent, g, hg, hname', ?_, ?_, ?_⟩⟩
  · exact hlisted.name.trans hname
  · exact hlisted.lineStart.trans hfirst
  · exact hlisted.lineEnd.trans hlast
  · exact hlisted'.name.trans hname'
  · exact hlisted'.lineStart.trans hfirst'
  · exact hlisted'.lineEnd.trans hlast'

end CodeSurvey.Survey
