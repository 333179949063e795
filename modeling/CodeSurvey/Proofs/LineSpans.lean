import CodeSurvey.Proofs.FileOrder
import CodeSurvey.Proofs.LineNumbers
import CodeSurvey.Proofs.Spans
import Mathlib.Data.List.DropRight

/-!
# Lines of records

Records tell the lines of their code. Where the code is taken without the blanks at its end, these
are lines of the file, whatever is unbalanced in it. Classes, interfaces and type aliases take their
code as it stands: one that is left open to the end of a file which ends in a line break tells one
line too many, and that is the only way.

- `LineSpan.Inside`, `LineSpan.Overruns`: the lines of a file, and one line more.
- `inside_pieceBetween`, `inside_or_overruns`: the lines of a piece of code.
- `Extractors.inside_of_mem_found`: what is found in one file.
- `analysisOf_lineSpans`: the records of a whole analysis.
- `class_overruns`: a class whose last line is not a line of the file.
-/

namespace CodeSurvey

open Text

/-! ## Spans of lines -/

/-- The first and the last line of a record. -/
structure LineSpan where
  first : Nat
  last : Nat

/-- The span begins and ends in the first `n` lines. -/
structure LineSpan.Inside (n : Nat) (span : LineSpan) : Prop where
  one_le : 1 ≤ span.first
  ordered : span.first ≤ span.last
  last_le : span.last ≤ n

/-- The span ends behind the last line of the text: it begins in the text, and its code reaches up
to the end, with nothing but carriage returns behind it, and ends in a line break. -/
structure LineSpan.Overruns (text : List Char) (span : LineSpan) : Prop where
  one_le : 1 ≤ span.first
  first_le : span.first ≤ (lines text).length
  last_eq : span.last = (lines text).length + 1
  open_end : ∃ before code rest, text = before ++ (code ++ rest) ∧
    span.first = 1 + count '\n' before ∧ span.last = span.first + count '\n' code ∧
    (code.getLast? = some '\n' ∨ code.getLast? = some '\r') ∧ ∀ c ∈ rest, c = '\r'

def Function.lineSpan (f : Function) : LineSpan :=
  ⟨f.lineStart, f.lineEnd⟩

def Route.lineSpan (r : Route) : LineSpan :=
  ⟨r.lineStart, r.lineEnd⟩

/-- The spans that an entity tells for code without blanks at its end, those of the functions and
routes in it included. -/
def Kind.trimmedSpans : (k : Kind) → k.Entity → List LineSpan
  | .functions => fun f => [f.lineSpan]
  | .classes => fun c => c.methods.map (·.lineSpan)
  | .routes => fun r => [r.lineSpan]
  | .services => fun s => s.methods.map (·.lineSpan)
  | .controllers => fun c => c.routes.map (·.lineSpan) ++ c.methods.map (·.lineSpan)
  | .middlewares => fun m => [⟨m.lineStart, m.lineEnd⟩]
  | .utilities => fun u => u.functions.map (·.lineSpan)
  | .hooks => fun h => [⟨h.lineStart, h.lineEnd⟩]
  | .components => fun c => [⟨c.lineStart, c.lineEnd⟩]
  | .interfaces | .types | .models => fun _ => []

/-- The spans that an entity tells for code as it stands. -/
def Kind.wholeSpans : (k : Kind) → k.Entity → List LineSpan
  | .classes => fun c => [⟨c.lineStart, c.lineEnd⟩]
  | .interfaces => fun i => [⟨i.lineStart, i.lineEnd⟩]
  | .types => fun t => [⟨t.lineStart, t.lineEnd⟩]
  | .functions | .routes | .services | .controllers | .middlewares | .utilities | .models | .hooks
  | .components => fun _ => []

namespace Extract

open Source Pattern

/-! ## Pieces of code -/

def Piece.lineSpan (p : Piece) : LineSpan :=
  ⟨p.first, p.last⟩

/-- The lines of a view are those of its text. -/
def View.Faithful (v : View) : Prop :=
  v.table = LineTable.ofText v.content

theorem faithful_ofFile (info : FileInfo) (content : List Char) :
    (View.ofFile info content).Faithful :=
  rfl

variable {v : View} {start : Nat} {code : List Char}

theorem View.Faithful.lineAt (hv : v.Faithful) (offset : Nat) :
    v.lineAt offset = (LineTable.ofText v.content).lineAt offset := by
  rw [View.lineAt, hv]

/-- The line of an offset is told by the line feeds in front of it. -/
theorem lineAt_ofFile (info : FileInfo) (content : List Char) (offset : Nat) :
    (View.ofFile info content).lineAt offset = 1 + count '\n' (content.take offset) := by
  rw [(faithful_ofFile info content).lineAt, lineAt_ofText]
  rfl

/-- The line behind a piece is told by the offset where it stops. -/
theorem View.Faithful.last_piece (hv : v.Faithful) (hcode : code <+: v.content.drop start) :
    (v.piece start code).last =
      (LineTable.ofText v.content).lineAt (start + code.length : Nat) := by
  rw [lineAt_add, ← List.prefix_iff_eq_take.mp hcode]
  show v.lineAt start + count '\n' code = _
  rw [hv.lineAt]

/-- A piece begins in a line of the file and does not end before. -/
theorem View.Faithful.first_piece (hv : v.Faithful) (hline : OnLine v.content start)
    (code : List Char) :
    1 ≤ (v.piece start code).first ∧ (v.piece start code).first ≤ (v.piece start code).last ∧
      (v.piece start code).first ≤ (lines v.content).length := by
  refine ⟨?_, Nat.le_add_right _ _, ?_⟩
  · show 1 ≤ v.lineAt start
    rw [hv.lineAt, lineAt_ofText]
    exact Nat.le_add_right 1 _
  · show v.lineAt start ≤ _
    rw [hv.lineAt]
    exact hline.lineAt_le

/-- **Pieces inside.** A piece that begins in a line of the file and is empty or ends in no line
break lies in the lines of the file: its last character stands in the last of its lines. -/
theorem inside_piece (hv : v.Faithful) (hline : OnLine v.content start)
    (hcode : code <+: v.content.drop start)
    (hlast : ∀ c, code.getLast? = some c → c ≠ '\n' ∧ c ≠ '\r') :
    (v.piece start code).lineSpan.Inside (lines v.content).length := by
  obtain ⟨hone, hordered, hfirst⟩ := hv.first_piece hline code
  refine ⟨hone, hordered, ?_⟩
  cases hend : code.getLast? with
  | none =>
    -- An empty piece ends in the line where it begins.
    obtain rfl := List.getLast?_eq_none_iff.mp hend
    exact hfirst
  | some c =>
    obtain ⟨hfeed, hreturn⟩ := hlast c hend
    obtain ⟨others, rfl⟩ := List.getLast?_eq_some_iff.mp hend
    have hothers : others <+: v.content.drop start := (List.prefix_append others [c]).trans hcode
    have hc : v.content[start + others.length]? = some c := by
      obtain ⟨rest, hrest⟩ := hcode
      rw [← List.getElem?_drop, ← hrest, List.append_assoc,
        List.getElem?_append_right (Nat.le_refl _), Nat.sub_self]
      rfl
    -- The last character is no line feed, so what stands before it has the same line feeds.
    have hcount : count '\n' (others ++ [c]) = count '\n' others := by
      rw [count, List.count_append, List.count_singleton, if_neg (by simpa using hfeed)]
      rfl
    have hsame : (v.piece start (others ++ [c])).last = (v.piece start others).last := by
      show v.lineAt start + count '\n' (others ++ [c]) = v.lineAt start + count '\n' others
      rw [hcount]
    show (v.piece start (others ++ [c])).last ≤ _
    rw [hsame, hv.last_piece hothers]
    exact OnLine.lineAt_le ⟨_, c, Nat.le_refl _, hc, hreturn⟩

/-- **Pieces as they stand.** A piece that begins in a line of the file lies in the lines of the
file, or else runs over their end. -/
theorem inside_or_overruns (hv : v.Faithful) (hline : OnLine v.content start)
    (hcode : code <+: v.content.drop start) :
    (v.piece start code).lineSpan.Inside (lines v.content).length ∨
      (v.piece start code).lineSpan.Overruns v.content := by
  obtain ⟨hone, hordered, hfirst⟩ := hv.first_piece hline code
  by_cases hle : (v.piece start code).last ≤ (lines v.content).length
  · exact .inl ⟨hone, hordered, hle⟩
  right
  have hlast := hv.last_piece hcode
  have hsucc : (v.piece start code).last ≤ (lines v.content).length + 1 := by
    rw [hlast]
    exact lineAt_le_succ v.content _
  -- Otherwise the piece lies inside.
  have hbreak : ∃ c, code.getLast? = some c ∧ (c = '\n' ∨ c = '\r') := by
    by_contra hnone
    push Not at hnone
    exact hle (inside_piece hv hline hcode hnone).last_le
  -- A character of a line behind the piece would have its number.
  have hrest : ∀ c ∈ v.content.drop (start + code.length), c = '\r' := by
    intro c hc
    by_contra hreturn
    obtain ⟨i, hi, hget⟩ := List.getElem_of_mem hc
    have hc' : v.content[start + code.length + i]? = some c := by
      rw [← List.getElem?_drop, List.getElem?_eq_getElem hi, hget]
    have hbehind : OnLine v.content (start + code.length) :=
      ⟨_, c, Nat.le_add_right _ _, hc', hreturn⟩
    exact hle (hlast.trans_le hbehind.lineAt_le)
  refine ⟨hone, hfirst, Nat.le_antisymm hsucc (Nat.lt_of_not_le hle),
    v.content.take start, code, v.content.drop (start + code.length), ?parts, ?first, rfl,
    ?ending, hrest⟩
  case parts =>
    obtain ⟨rest, hparts⟩ := hcode
    have hbehind : v.content.drop (start + code.length) = rest := by
      rw [← List.drop_drop, ← hparts, List.drop_left]
    rw [hbehind, hparts, List.take_append_drop]
  case first =>
    show v.lineAt start = _
    rw [hv.lineAt, lineAt_ofText]
  case ending =>
    obtain ⟨c, hc, rfl | rfl⟩ := hbreak
    · exact .inl hc
    · exact .inr hc

/-- A text without blanks at its end ends in something else. -/
theorem isSpace_of_getLast?_trimEnd {text : List Char} {c : Char}
    (h : (trimEnd text).getLast? = some c) : isSpace c = false := by
  have hne : trimEnd text ≠ [] := by
    intro hnil
    rw [hnil] at h
    contradiction
  rw [List.getLast?_eq_some_getLast hne] at h
  obtain rfl := Option.some.inj h
  exact Bool.eq_false_iff.mpr (List.rdropWhile_last_not isSpace text hne)

/-- **Trimmed pieces.** A piece without blanks at its end that begins in a line of the file lies in
the lines of the file, wherever it is said to stop. -/
theorem inside_pieceBetween (hv : v.Faithful) (hline : OnLine v.content start) (stop : Nat) :
    (v.pieceBetween start stop).lineSpan.Inside (lines v.content).length := by
  refine inside_piece hv hline ?_ fun c hc => ?_
  · have htrim : trimEnd (between v.content start stop) <+: between v.content start stop :=
      List.rdropWhile_prefix isSpace _
    exact htrim.trans (List.take_prefix _ _)
  · -- What is left ends in no blank, and line breaks are blanks.
    have hink := isSpace_of_getLast?_trimEnd hc
    constructor
    · rintro rfl
      exact absurd hink (by decide)
    · rintro rfl
      exact absurd hink (by decide)

/-! ## Where records begin -/

/-- Whether every reading of the pattern reads something else than carriage returns. -/
def readsLine (p : Pattern) : Bool :=
  p.surely fun set => !set.mem '\r'

theorem ne_return_of_mem (set : CharSet) (c : Char) (hset : (!set.mem '\r') = true)
    (hmem : set.mem c = true) : c ≠ '\r' := by
  rintro rfl
  rw [hmem] at hset
  contradiction

/-- Where such a pattern matches, a line goes on. -/
theorem onLine_of_matches {p : Pattern} {subject text : List Char} {m : Match}
    (hp : readsLine p = true) (h : p.Matches subject text m) : OnLine text m.start := by
  obtain ⟨i, c, hle, -, hc, hreturn⟩ := h.exists_getElem? ne_return_of_mem hp
  exact ⟨i, c, hle, hc, hreturn⟩

/-- The spans that rules keep begin where a line goes on. -/
theorem onLine_of_mem_scan {α : Type} {rules : List (Rule α)} {text : List Char} {s : Span α}
    (hrules : ∀ r ∈ rules, readsLine r.pattern = true) (h : s ∈ scan rules text) :
    OnLine text s.start := by
  obtain ⟨r, hr, -, hmatches⟩ := exists_rule_of_mem_scan h
  exact onLine_of_matches (hrules r hr) hmatches

/-! ## One kind after the other

Functions, methods, routes, middlewares, hooks and components lie in the lines of the file. Classes,
interfaces and type aliases do too, or run over their end. -/

variable {limits : Limits} {info : FileInfo} {content : List Char}

theorem inside_of_mem_functions (hv : v.Faithful) {f : Function} (h : f ∈ functions limits v) :
    f.lineSpan.Inside (lines v.content).length := by
  obtain ⟨s, hs, h⟩ := List.mem_filterMap.mp h
  obtain ⟨c, -, rfl⟩ := Option.map_eq_some_iff.mp h
  exact inside_pieceBetween hv (onLine_of_mem_scan (by decide) hs) c.stop

/-- Matches at brace depth zero are among all matches. -/
theorem mem_of_mem_atDepthZero {content : List Char} {m : Match} {found : List Match} :
    ∀ {place : Nat} {depth : Int}, m ∈ atDepthZero content place depth found → m ∈ found := by
  induction found with
  | nil => exact fun h => h
  | cons first rest ih =>
    intro place depth h
    rw [atDepthZero] at h
    split at h
    · rcases List.mem_cons.mp h with rfl | h
      · exact List.mem_cons_self
      · exact List.mem_cons_of_mem first (ih h)
    · exact List.mem_cons_of_mem first (ih h)

/-- A method begins where its head was kept, and its line goes on there: the head ends in its
parenthesis. -/
theorem onLine_of_methodMatch {subject text : List Char} {m : Match}
    (h : methodPattern.Matches subject text m) :
    OnLine text ((m.span? "head").elim m.start (·.start)) := by
  obtain ⟨s, t, hwithin, -, ⟨u, hfirst, w, hhead, rfl⟩, rfl⟩ := h.exists_reads
  -- The indentation is passed before the head, which begins at `u`.
  obtain ⟨indent, hpasses⟩ := hfirst.exists_passes
  have hplace := hwithin.passes hpasses
  obtain ⟨head, hread, c, hc, hreturn⟩ := meets_of_surely ne_return_of_mem (by decide) hhead
  obtain ⟨i, hi, hget⟩ := List.getElem_of_mem hc
  refine ⟨u.offset + i, c, Nat.le_add_right _ _, ?_, hreturn⟩
  rw [← List.getElem?_drop, hplace.drop, hread.after, List.getElem?_append_left hi,
    List.getElem?_eq_getElem hi, hget]

theorem inside_of_mem_methods (hv : v.Faithful) {start stop : Nat}
    (hstart : start ≤ v.content.length) {f : Function} (h : f ∈ methods limits v start stop) :
    f.lineSpan.Inside (lines v.content).length := by
  obtain ⟨m, hm, h⟩ := List.mem_filterMap.mp h
  -- The body of the class is searched as if the text ended with it.
  have hfound : m ∈ methodPattern.findAllIn v.content start stop := mem_of_mem_atDepthZero hm
  have hline := onLine_of_methodMatch (matches_of_mem_findAllIn hstart hfound).1
  dsimp only at h
  split at h
  · contradiction
  · obtain ⟨c, -, rfl⟩ := Option.map_eq_some_iff.mp h
    exact inside_pieceBetween hv (hline.of_take) c.stop

/-- A block is taken from the text at its start. -/
theorem block_isPrefix (text : List Char) (start searchFrom : Nat) (fallback ceiling : Int) :
    block text start searchFrom fallback ceiling <+: text.drop start := by
  have hcut (stop : Int) : cut text start stop <+: text.drop start := by
    have hdrop : text.drop (place text.length start) = text.drop start := by
      rw [place_ofNat]
      by_cases hstart : start ≤ text.length
      · rw [Nat.min_eq_left hstart]
      · have hlong : text.length ≤ start := by omega
        rw [Nat.min_eq_right hlong, List.drop_length, List.drop_eq_nil_of_le hlong]
    rw [cut, hdrop]
    exact List.take_prefix _ _
  -- However long a block is, it is cut from the same place.
  rw [block]
  split
  · exact hcut _
  · dsimp only
    split
    · exact List.take_prefix _ _
    · exact hcut _

theorem inside_or_overruns_of_mem_classes (hv : v.Faithful) {c : Class} (h : c ∈ classes limits v) :
    (∀ f ∈ c.methods, f.lineSpan.Inside (lines v.content).length) ∧
      (LineSpan.Inside (lines v.content).length ⟨c.lineStart, c.lineEnd⟩ ∨
        LineSpan.Overruns v.content ⟨c.lineStart, c.lineEnd⟩) := by
  obtain ⟨s, hs, rfl⟩ := List.mem_map.mp h
  obtain ⟨r, -, -, hmatches⟩ := exists_rule_of_mem_scan hs
  refine ⟨fun f hf => inside_of_mem_methods hv hmatches.bounds.2 hf, ?_⟩
  exact inside_or_overruns hv (onLine_of_mem_scan (by decide) hs) (block_isPrefix _ _ _ _ _)

theorem inside_or_overruns_of_mem_interfaces (hv : v.Faithful) {i : Interface}
    (h : i ∈ interfaces limits v) :
    LineSpan.Inside (lines v.content).length ⟨i.lineStart, i.lineEnd⟩ ∨
      LineSpan.Overruns v.content ⟨i.lineStart, i.lineEnd⟩ := by
  obtain ⟨s, hs, rfl⟩ := List.mem_map.mp h
  exact inside_or_overruns hv (onLine_of_mem_scan (by decide) hs) (block_isPrefix _ _ _ _ _)

theorem inside_or_overruns_of_mem_aliases (hv : v.Faithful) {a : TypeAlias}
    (h : a ∈ aliases limits v) :
    LineSpan.Inside (lines v.content).length ⟨a.lineStart, a.lineEnd⟩ ∨
      LineSpan.Overruns v.content ⟨a.lineStart, a.lineEnd⟩ := by
  obtain ⟨s, hs, h⟩ := List.mem_filterMap.mp h
  rw [buildAlias?] at h
  dsimp only at h
  split at h
  · contradiction
  · obtain rfl := Option.some.inj h
    exact inside_or_overruns hv (onLine_of_mem_scan (by decide) hs) (List.take_prefix _ _)

theorem inside_of_mem_routes (hv : v.Faithful) {auth : Security.Auth} {r : Route}
    (h : r ∈ routes limits auth v) : r.lineSpan.Inside (lines v.content).length := by
  -- Every route is a piece that begins with a match.
  have hroute (isProtected : Bool) {p : Pattern} {m : Match} (hp : readsLine p = true)
      (hm : p.Matches v.content v.content m) (method : String) (path : List Char) (stop : Nat)
      (framework : String) (middleware : List String) :
      (RouteSource.route ⟨limits, v, isProtected⟩ method path m.start stop framework
        middleware).lineSpan.Inside (lines v.content).length :=
    inside_pieceBetween hv (onLine_of_matches hp hm) stop
  exact forall_mem_routes (P := fun r => r.lineSpan.Inside (lines v.content).length)
    (fun _ _ hm _ _ => hroute _ rfl (matches_of_search? hm) _ _ _ _ _)
    (fun _ hm _ _ => hroute _ rfl (matches_of_search? hm) _ _ _ _ _)
    (fun _ hm _ _ _ _ => hroute _ rfl (matches_of_mem_findAll hm) _ _ _ _ _) r h

theorem inside_of_mem_middlewares (hv : v.Faithful) {m : Middleware}
    (h : m ∈ middlewares limits v) :
    LineSpan.Inside (lines v.content).length ⟨m.lineStart, m.lineEnd⟩ := by
  obtain ⟨s, hs, rfl⟩ := List.mem_map.mp h
  have hscan := (List.mem_filter.mp hs).1
  exact inside_pieceBetween hv (onLine_of_mem_scan (by decide) hscan) _

/-- Whatever the names are, the forms of exported callables begin with a word. -/
theorem readsLine_of_mem_exportedRules (name : Pattern) :
    ∀ r ∈ exportedRules name, readsLine r.pattern = true := by
  intro r hr
  simp only [exportedRules, List.mem_cons, List.not_mem_nil, or_false] at hr
  rcases hr with rfl | rfl | rfl | rfl <;> rfl

theorem onLine_of_mem_exportedCallables {name : Pattern} {s : Span CallableForm} {c : Callable}
    (h : (s, c) ∈ exportedCallables limits v.content name) : OnLine v.content s.start := by
  obtain ⟨s', hs', h⟩ := List.mem_filterMap.mp h
  obtain ⟨c', -, heq⟩ := Option.map_eq_some_iff.mp h
  cases heq
  exact onLine_of_mem_scan (readsLine_of_mem_exportedRules name) hs'

theorem inside_of_mem_hooks (hv : v.Faithful) {hook : Hook} (h : hook ∈ hooks limits v) :
    LineSpan.Inside (lines v.content).length ⟨hook.lineStart, hook.lineEnd⟩ := by
  obtain ⟨⟨s, c⟩, hs, rfl⟩ := List.mem_map.mp h
  exact inside_pieceBetween hv (onLine_of_mem_exportedCallables hs) c.stop

theorem inside_of_mem_components (hv : v.Faithful) {types : DeclaredTypes} {c : Component}
    (h : c ∈ components limits types v) :
    LineSpan.Inside (lines v.content).length ⟨c.lineStart, c.lineEnd⟩ := by
  obtain ⟨⟨s, callable⟩, hs, rfl⟩ := List.mem_map.mp h
  exact inside_pieceBetween hv (onLine_of_mem_exportedCallables hs) callable.stop

/-! ## All kinds -/

/-- Every span that the entities of a kind tell for trimmed code lies in so many lines. -/
def AllInside (n : Nat) (k : Kind) (entities : List k.Entity) : Prop :=
  ∀ e ∈ entities, ∀ span ∈ k.trimmedSpans e, span.Inside n

/-- Functions and the methods of classes lie inside together. -/
theorem inside_allMethods {n : Nat} {functions : List Function} {classes : List Class}
    (hfunctions : AllInside n .functions functions) (hclasses : AllInside n .classes classes) :
    ∀ span ∈ (allMethods functions classes).map (·.lineSpan), span.Inside n := by
  intro span hspan
  obtain ⟨f, hf, rfl⟩ := List.mem_map.mp hspan
  rcases List.mem_append.mp hf with hf | hf
  · exact hfunctions f hf _ List.mem_cons_self
  · obtain ⟨c, hc, hf⟩ := List.mem_flatMap.mp hf
    exact hclasses c hc _ (List.mem_map_of_mem hf)

/-- What is found in a file lies in its lines if what it is put together from does. -/
theorem Extractors.inside_of_mem_found {x : Extractors} (hv : v.Faithful) {given : Entities}
    {k : Kind} (hgiven : ∀ j ∈ k.reads, AllInside (lines v.content).length j (given j)) :
    AllInside (lines v.content).length k (x.found v given k) := by
  intro e he span hspan
  cases k with
  | functions =>
    obtain rfl := List.mem_singleton.mp hspan
    exact inside_of_mem_functions hv he
  | classes =>
    obtain ⟨f, hf, rfl⟩ := List.mem_map.mp hspan
    exact (inside_or_overruns_of_mem_classes hv he).1 f hf
  | interfaces => contradiction
  | types => contradiction
  | routes =>
    obtain rfl := List.mem_singleton.mp hspan
    exact inside_of_mem_routes hv he
  | services =>
    -- What is put together from other kinds has their spans.
    obtain rfl := List.mem_singleton.mp he
    exact inside_allMethods (hgiven .functions (by decide)) (hgiven .classes (by decide)) span hspan
  | controllers =>
    obtain rfl := List.mem_singleton.mp he
    rcases List.mem_append.mp hspan with hroute | hmethod
    · obtain ⟨r, hr, rfl⟩ := List.mem_map.mp hroute
      exact hgiven .routes (by decide) r hr _ List.mem_cons_self
    · exact inside_allMethods (hgiven .functions (by decide)) (hgiven .classes (by decide)) span
        hmethod
  | middlewares =>
    obtain rfl := List.mem_singleton.mp hspan
    exact inside_of_mem_middlewares hv he
  | utilities =>
    simp only [Extractors.found, utilities] at he
    split at he
    · contradiction
    · obtain rfl := List.mem_singleton.mp he
      obtain ⟨f, hf, rfl⟩ := List.mem_map.mp hspan
      exact hgiven .functions (by decide) f hf _ List.mem_cons_self
  | models => contradiction
  | hooks =>
    obtain rfl := List.mem_singleton.mp hspan
    exact inside_of_mem_hooks hv he
  | components =>
    obtain rfl := List.mem_singleton.mp hspan
    exact inside_of_mem_components hv he

/-- What is found in a file and takes its code as it stands lies in the lines of the file or runs
over their end. -/
theorem Extractors.inside_or_overruns_of_mem_found {x : Extractors} (hv : v.Faithful)
    {given : Entities} {k : Kind} {e : k.Entity} (he : e ∈ x.found v given k) :
    ∀ span ∈ k.wholeSpans e,
      span.Inside (lines v.content).length ∨ span.Overruns v.content := by
  intro span hspan
  cases k with
  | classes =>
    obtain rfl := List.mem_singleton.mp hspan
    exact (inside_or_overruns_of_mem_classes hv he).2
  | interfaces =>
    obtain rfl := List.mem_singleton.mp hspan
    exact inside_or_overruns_of_mem_interfaces hv he
  | types =>
    obtain rfl := List.mem_singleton.mp hspan
    exact inside_or_overruns_of_mem_aliases hv he
  | functions => contradiction
  | routes => contradiction
  | services => contradiction
  | controllers => contradiction
  | middlewares => contradiction
  | utilities => contradiction
  | models => contradiction
  | hooks => contradiction
  | components => contradiction

/-- What is left of a file lies in its lines, whatever failed. What a kind reads reads nothing
itself. -/
theorem Context.inside_left {c : Context} (hv : c.view.Faithful) (gone : Kind → Bool) (k : Kind) :
    AllInside (lines c.view.content).length k (c.left gone k) := by
  have hbase (j : Kind) (hj : ∀ i ∈ j.reads, AllInside (lines c.view.content).length i
      (c.left gone i)) : AllInside (lines c.view.content).length j (c.left gone j) := by
    intro e he
    rw [Context.left, Extractors.entitiesWithout_eq] at he
    split at he
    · contradiction
    · exact Extractors.inside_of_mem_found hv hj e he
  apply hbase
  intro j hj
  apply hbase
  intro i hi
  rw [Kind.reads_of_mem_reads hj] at hi
  contradiction

/-- What is left of a file and takes its code as it stands lies in its lines or runs over their
end. -/
theorem Context.inside_or_overruns_of_mem_left {c : Context} (hv : c.view.Faithful)
    {gone : Kind → Bool} {k : Kind} {e : k.Entity} (he : e ∈ c.left gone k) :
    ∀ span ∈ k.wholeSpans e,
      span.Inside (lines c.view.content).length ∨ span.Overruns c.view.content := by
  rw [Context.left, Extractors.entitiesWithout_eq] at he
  split at he
  · contradiction
  · exact Extractors.inside_or_overruns_of_mem_found hv he

end Extract

namespace Survey

open Extract (Context Extractors Faults)

/-! ## Whole analyses -/

variable {s : Surveyor} {x : Extractors} {faults : Faults} {files : List SourceFile}

/-- Who calls a function changes neither its path nor its lines. -/
theorem Surveyor.exists_of_mem_entitiesIn {file : SourceFile} {k : Kind} {e : k.Entity}
    (h : e ∈ s.entitiesIn x faults files file k) :
    ∃ e' ∈ (s.surveyOf x faults file).entities k,
      k.trimmedSpans e = k.trimmedSpans e' ∧ k.wholeSpans e = k.wholeSpans e' := by
  by_cases hk : k = .functions
  · -- Only functions are changed after the file was surveyed.
    subst hk
    rw [Surveyor.entitiesIn, Entities.put_self, Surveyor.functionsIn] at h
    split at h
    · obtain ⟨f, hf, rfl⟩ := List.mem_map.mp h
      exact ⟨f, hf, rfl, rfl⟩
    · exact ⟨e, h, rfl, rfl⟩
  · rw [Surveyor.entitiesIn, Entities.put_of_ne _ _ (Ne.symm hk)] at h
    exact ⟨e, h, rfl, rfl⟩

/-- **Lines of records.** Every record of an analysis belongs to one of its files. What it tells of
trimmed code are lines of this file: functions, methods, routes, middlewares, hooks and components,
and the functions and routes in services, controllers and utility modules. Classes, interfaces and
type aliases lie in the lines of the file too, or else run over their end. -/
theorem analysisOf_lineSpans (user : Settings) (workers : Option Int) (files : List SourceFile)
    (faults : Faults) {a : Analysis} (h : analysisOf user workers files faults = .ok a) :
    ∀ k, ∀ e ∈ a.entities k, ∃ file ∈ files, ∃ info ∈ a.files,
      k.filePath e = info.path ∧ info.path = file.path ∧
      info.lines = (lines file.content.toList).length ∧
      (∀ span ∈ k.trimmedSpans e, span.Inside info.lines) ∧
      (∀ span ∈ k.wholeSpans e,
        span.Inside info.lines ∨ span.Overruns file.content.toList) := by
  intro k e he
  obtain ⟨s, -, hanalyze⟩ := bind_eq_ok.mp h
  obtain ⟨-, x, report, quality, -, -, -, rfl⟩ := Surveyor.analyze_eq_ok_iff.mp hanalyze
  -- The entity comes from the survey of one file, and the survey numbers the lines of this file.
  rw [Surveyor.entities_eq_flatMap] at he
  obtain ⟨file, hfile, he⟩ := List.mem_flatMap.mp he
  obtain ⟨e', he', htrimmed, hwhole⟩ := Surveyor.exists_of_mem_entitiesIn he
  have hpath := Surveyor.filePath_of_mem_entitiesIn he
  rw [(s.surveyOf_spec x faults file).1] at he'
  have hv := Extract.faithful_ofFile (s.infoOf file) file.content.toList
  refine ⟨file, hfile, s.infoOf file, List.mem_map_of_mem hfile, hpath, rfl, rfl, ?_, ?_⟩
  · rw [htrimmed]
    exact Context.inside_left hv _ k e' he'
  · rw [hwhole]
    exact Context.inside_or_overruns_of_mem_left hv he'

/-- A file of four lines: a function with a call in it, and a class that is left open. -/
def openClass : SourceFile :=
  { path := "a.ts", content := "function f() \x7b\n  g()\n\x7d\nclass A \x7b" }

/-- The function and the class lie in the four lines. -/
theorem analysisOf_lineSpans_standard :
    ∃ a, analysisOf [] none [openClass] = .ok a ∧
      (∀ f ∈ a.entities .functions, f.lineSpan.Inside 4) ∧
      ((a.entities .functions).map (·.lineSpan.last), (a.entities .classes).map (·.lineEnd)) =
        ([3], [4]) := by
  have hlines : ((analysisOf [] none [openClass]).map fun a =>
      (a.files.map (·.lines), (a.entities .functions).map (·.lineSpan.last),
        (a.entities .classes).map (·.lineEnd))).toOption = some ([4], [3], [4]) := by
    decide +kernel
  obtain ⟨a, ha, hseen⟩ := exists_eq_ok_of_map hlines
  obtain ⟨hfiles, hspans⟩ := Prod.mk.inj hseen
  refine ⟨a, ha, fun f hf => ?_, hspans⟩
  obtain ⟨file, -, info, hinfo, -, -, -, hinside, -⟩ :=
    analysisOf_lineSpans [] none [openClass] [] ha .functions f hf
  have hfour : info.lines = 4 := by
    have hmem := List.mem_map_of_mem hinfo (f := FileInfo.lines)
    rw [hfiles] at hmem
    exact List.mem_singleton.mp hmem
  rw [← hfour]
  exact hinside _ List.mem_cons_self

/-- **A line too many.** The only line of this file opens a class, and its last line is said to be
the second one. -/
theorem class_overruns :
    ∃ a, analysisOf [] none [{ path := "a.ts", content := "class A \x7b\n" }] = .ok a ∧
      ∃ c ∈ a.entities .classes, ∃ info ∈ a.files, c.filePath = info.path ∧
        info.lines = 1 ∧ ¬c.lineEnd ≤ info.lines := by
  have hlines : ((analysisOf [] none [{ path := "a.ts", content := "class A \x7b\n" }]).map fun a =>
      ((a.entities .classes).map fun c => (c.filePath, c.lineEnd),
        a.files.map fun info => (info.path, info.lines))).toOption =
      some ([("a.ts", 2)], [("a.ts", 1)]) := by
    decide +kernel
  obtain ⟨a, ha, hseen⟩ := exists_eq_ok_of_map hlines
  obtain ⟨hclasses, hfiles⟩ := Prod.mk.inj hseen
  obtain ⟨c, hc, hcspan⟩ := List.mem_map.mp (hclasses ▸ List.mem_cons_self)
  obtain ⟨info, hinfo, hinfospan⟩ := List.mem_map.mp (hfiles ▸ List.mem_cons_self)
  obtain ⟨hpath, hend⟩ := Prod.mk.inj hcspan
  obtain ⟨hpath', hlast⟩ := Prod.mk.inj hinfospan
  refine ⟨a, ha, c, hc, info, hinfo, hpath.trans hpath'.symm, hlast, ?_⟩
  rw [hend, hlast]
  decide

end Survey

end CodeSurvey
