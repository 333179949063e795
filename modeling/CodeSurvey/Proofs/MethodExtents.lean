import CodeSurvey.Proofs.Braces
import CodeSurvey.Proofs.LineSpans
import CodeSurvey.Proofs.ScanBounds

/-!
# Extents of methods

A method begins in the body of its class, at depth zero. It ends with the first brace that closes its
own body, so it ends inside the class as well, as long as its body begins there: the part of it in
front of its body is read without regard to where the class ends.

- `headStart_spec`, `level_of_mem_atDepthZero`: where methods begin.
- `readCallable_forbidden`: where their bodies begin and end.
- `Escapes`, `CutOff`: how a method can end behind its class.
- `methods_inside`: methods lie inside their classes otherwise.
- `method_escapes`: a method that ends behind its class.
-/

namespace CodeSurvey.Extract

open Text Source Pattern

variable {limits : Limits} {content : List Char}

/-! ## Where methods begin -/

/-- Where the method of a match begins: behind the indentation. -/
def headStart (m : Match) : Nat :=
  (m.span? "head").elim m.start (·.start)

/-- What a method is found by: an indentation, and then a head that ends with a parenthesis. -/
theorem headStart_spec {start stop : Nat} (hstart : start ≤ content.length) {m : Match}
    (h : m ∈ methodPattern.findAllIn content start stop) :
    start ≤ m.start ∧ m.start ≤ headStart m ∧ headStart m < m.stop ∧
      m.stop ≤ min (max start stop) content.length ∧
      ∀ c ∈ between content m.start (headStart m), c = ' ' ∨ c = '\t' := by
  obtain ⟨hmatches, hbehind⟩ := matches_of_mem_findAllIn hstart h
  have hbounds := hmatches.bounds
  rw [List.length_take] at hbounds
  obtain ⟨s, t, hwithin, -, ⟨u, hfirst, w, hhead, rfl⟩, rfl⟩ := hmatches.exists_reads
  obtain ⟨indent, hpasses⟩ := hfirst.exists_passes
  have hmeets := meets_of_surely ne_return_of_mem (by decide) hhead
  have hoffset := hpasses.offset
  -- The indentation is read in the part of the text up to the stop, which is a part of the whole.
  have hindent : between content s.offset u.offset = indent := by
    have hprefix : indent <+: content.drop s.offset := by
      have hread : indent <+: (content.take (max start stop)).drop s.offset := by
        rw [hwithin.drop, hpasses.after]
        exact List.prefix_append _ _
      rw [List.drop_take] at hread
      exact hread.trans (List.take_prefix _ _)
    rw [between, hoffset, Nat.add_sub_cancel_left, ← List.prefix_iff_eq_take.mp hprefix]
  refine ⟨hbehind, Nat.le.intro hoffset.symm, hmeets.lt.2, hbounds.2, ?_⟩
  intro c hc
  have hc : c ∈ indent := by
    rw [← hindent]
    exact hc
  have hmem : (CharSet.ofString " \t").mem c = true :=
    mem_of_throughout (by decide) hfirst hpasses hc
  have hsame : (' ' == c || '\t' == c) = true := hmem
  rw [Bool.or_eq_true, beq_iff_eq, beq_iff_eq] at hsame
  exact hsame.imp Eq.symm Eq.symm

/-- Matches that are kept at depth zero stand there: so many braces open as close in front of
them. -/
theorem level_of_mem_atDepthZero {start : Nat} {m : Match} {found : List Match} :
    ∀ {place : Nat} {depth : Int}, start ≤ place → depth = level (between content start place) →
      (∀ n ∈ found, place ≤ n.start) → (found.Pairwise fun a b => a.start ≤ b.start) →
      m ∈ atDepthZero content place depth found → level (between content start m.start) = 0 := by
  induction found with
  | nil => exact fun _ _ _ _ h => absurd h List.not_mem_nil
  | cons first rest ih =>
    intro place depth hplace hdepth hbehind hsorted h
    rw [List.pairwise_cons] at hsorted
    have hnext : place ≤ first.start := hbehind first List.mem_cons_self
    -- The depth is carried on over the gap in front of the match.
    have hdepth' : depth + count '{' (between content place first.start) -
        count '}' (between content place first.start) =
          level (between content start first.start) := by
      rw [level_between content hplace hnext, hdepth, level, level]
      omega
    have hrest := ih (Nat.le_trans hplace hnext) hdepth' hsorted.1 hsorted.2
    rw [atDepthZero] at h
    split at h
    · rename_i hzero
      rcases List.mem_cons.mp h with rfl | h
      · rw [← hdepth']
        exact beq_iff_eq.mp hzero
      · exact hrest h
    · exact hrest h

/-! ## Where methods end -/

/-- A closing bracket does not stand before the opening one. -/
theorem le_of_closing? {start close : Nat} {ceiling : Int}
    (h : closing? content start ceiling = some close) : start ≤ close := by
  rw [closing?, Option.bind_eq_bind, Option.bind_eq_some_iff] at h
  obtain ⟨opener, -, h⟩ := h
  obtain ⟨closer, -, h⟩ := Option.bind_eq_some_iff.mp h
  obtain ⟨n, -, rfl⟩ := Option.map_eq_some_iff.mp h
  exact Nat.le_add_left start n

/-- A callable without an arrow has a block for its body, behind its parameters. -/
theorem readCallable_forbidden {paren : Nat} {c : Callable}
    (h : readCallable limits content paren .forbidden = some c) :
    paren < c.bodyStart ∧ content[c.bodyStart]? = some '{' ∧
      c.stop = blockStop limits content c.bodyStart := by
  rw [readCallable, Option.bind_eq_bind, Option.bind_eq_some_iff] at h
  obtain ⟨close, hclose, h⟩ := h
  have hparen := le_of_closing? hclose
  have htype := le_returnType content (close + 1) limits.signature
  dsimp only at h
  have hbody := le_skipBlanks content (returnType content (close + 1) limits.signature).2
  split at h
  · contradiction
  · rw [if_neg (by decide)] at h
    split at h
    · rename_i hbrace
      obtain rfl := Option.some.inj h
      exact ⟨by dsimp only; omega, beq_iff_eq.mp hbrace, rfl⟩
    · contradiction

/-! ## Classes and their methods -/

/-- Where the text of a class stops. -/
def classStop (limits : Limits) (content : List Char) (s : Span Unit) : Nat :=
  s.start + (block content s.start (s.stop - 1) limits.fallback limits.block).length

/-- A method that is read past the end of its class: a start of what stands in front of its body
closes more braces than it opens. -/
def Escapes (content : List Char) (f : Function) : Prop :=
  ∃ before signature body rest, content = before ++ (signature ++ (body ++ rest)) ∧
    (body ++ rest).head? = some '{' ∧ f.lineStart = 1 + count '\n' before ∧
    f.lineEnd = f.lineStart + count '\n' (trimEnd (signature ++ body)) ∧
    ∃ n, level (signature.take n) < 0

/-- A class that is cut off: its block does not close in what the ceiling lets be seen, and the file
goes on behind. -/
def CutOff (limits : Limits) (content : List Char) (c : Class) : Prop :=
  ∃ before head inner rest, content = before ++ (head ++ '{' :: (inner ++ rest)) ∧
    c.lineStart = 1 + count '\n' before ∧ '{' ∉ head ∧ rest ≠ [] ∧
    inner.length = limits.block.toNat ∧ ∀ n, 0 ≤ level (inner.take n)

/-- The header of a class stops behind the first brace in it. -/
theorem classHeader_spec {s : Span Unit} (h : s ∈ scan [classRule] content) :
    ∃ opening, s.stop = opening + 1 ∧ s.start ≤ opening ∧ content[opening]? = some '{' ∧
      '{' ∉ between content s.start opening := by
  obtain ⟨r, hr, -, hmatches⟩ := exists_rule_of_mem_scan h
  obtain rfl := List.mem_singleton.mp hr
  obtain ⟨first, last, hwithin, -, ⟨u, hhead, c, rest, hafter, hmem, rfl⟩, hfound⟩ :=
    hmatches.exists_reads
  obtain ⟨head, hpasses⟩ := hhead.exists_passes
  have hstart : s.start = first.offset := congrArg Match.start hfound
  have hstop : s.stop = u.offset + 1 := congrArg Match.stop hfound
  obtain rfl : '{' = c := beq_iff_eq.mp hmem
  refine ⟨u.offset, hstop, ?_, (hwithin.passes hpasses).getElem? hafter, ?_⟩
  · rw [hstart, hpasses.offset]
    exact Nat.le_add_right _ _
  · rw [hstart, hwithin.between hpasses]
    intro hbrace
    have hmem : (CharSet.compl (.char '{')).mem '{' = true :=
      mem_of_throughout (by decide) hhead hpasses hbrace
    contradiction

/-- A method is read behind a match in the body of the class that stands at depth zero. -/
theorem exists_of_mem_methods {v : View} {start stop : Nat} {f : Function}
    (h : f ∈ methods limits v start stop) :
    ∃ m c, m ∈ atDepthZero v.content start 0 (methodPattern.findAllIn v.content start stop) ∧
      readCallable limits v.content (m.stop - 1) .forbidden = some c ∧
      f = buildFunction limits v ((m.group? "name").getD []) (headStart m) c false
        (m.has "async") := by
  obtain ⟨m, hm, h⟩ := List.mem_filterMap.mp h
  dsimp only at h
  split at h
  · contradiction
  · obtain ⟨c, hc, rfl⟩ := Option.map_eq_some_iff.mp h
    exact ⟨m, c, hm, hc, rfl⟩

/-- The last line of a piece is not behind that of a place up to which it reaches. -/
theorem last_pieceBetween_le {v : View} (hv : v.Faithful) {start stop place : Nat}
    (hstart : start ≤ place) (hstop : min stop v.content.length ≤ place) :
    (v.pieceBetween start stop).last ≤ (LineTable.ofText v.content).lineAt (place : Nat) := by
  have htrim : trimEnd (between v.content start stop) <+: between v.content start stop :=
    List.rdropWhile_prefix isSpace _
  have hpiece := length_between v.content start stop
  have hlength := htrim.length_le
  rw [View.pieceBetween, hv.last_piece (htrim.trans (List.take_prefix _ _))]
  apply lineAt_mono
  omega

/-- Whatever stands in the indentation, a method begins where as many braces have opened as
closed. -/
theorem level_headStart {start stop : Nat} (hstart : start ≤ content.length) {m : Match}
    (h : m ∈ atDepthZero content start 0 (methodPattern.findAllIn content start stop)) :
    level (between content start (headStart m)) = 0 := by
  have hfound := mem_of_mem_atDepthZero h
  obtain ⟨hbehind, hindent, -, -, hblanks⟩ := headStart_spec hstart hfound
  have hsorted : (methodPattern.findAllIn content start stop).Pairwise fun a b =>
      a.start ≤ b.start := by
    refine (findAllIn_pairwise methodPattern stop hstart).imp_of_mem ?_
    intro a b ha hb hapart
    obtain ⟨-, hle, hlt, -⟩ := headStart_spec hstart ha
    omega
  have hzero : (0 : Int) = level (between content start start) := by
    rw [between, Nat.sub_self, List.take_zero, level_nil]
  have hline := level_of_mem_atDepthZero (Nat.le_refl start) hzero
    (fun n hn => (headStart_spec hstart hn).1) hsorted h
  have hlevel : level (between content m.start (headStart m)) = 0 := by
    apply level_eq_zero
    intro c hc
    rcases hblanks c hc with rfl | rfl <;> decide
  rw [level_between content hbehind hindent, hline, hlevel]
  rfl

section

variable {s : Span Unit} {opening : Nat} (hle : s.start ≤ opening)
  (hbrace : content[opening]? = some '{')
include hle hbrace

/-- Where the block of a class closes, its text stops behind the closing brace. -/
theorem classStop_of_closes (hstop : s.stop = opening + 1) {n : Nat}
    (hcloses : blockAhead? 0 (between content (opening + 1)
      (blockLimit content opening limits.block).toNat) = some n) :
    classStop limits content s = opening + 1 + n := by
  obtain ⟨hlimit, -⟩ := level_of_closes hcloses
  have hlength : opening + 1 + n ≤ content.length := by
    unfold blockLimit at hlimit
    omega
  rw [classStop, hstop, Nat.add_sub_cancel, block_eq content hle hbrace, hcloses]
  dsimp only
  rw [length_between]
  omega

/-- Where the block of a class does not close in what is left of the file, its text goes on to the
end of the file. -/
theorem classStop_of_open (hstop : s.stop = opening + 1)
    (hopen : blockAhead? 0 (between content (opening + 1)
      (blockLimit content opening limits.block).toNat) = none)
    (hlimit : (content.length : Int) ≤ opening + 1 + limits.block) :
    classStop limits content s = content.length := by
  have hall : blockLimit content opening limits.block = (content.length : Int) :=
    Int.min_eq_left hlimit
  have hopening : opening < content.length := (List.getElem?_eq_some_iff.mp hbrace).1
  rw [classStop, hstop, Nat.add_sub_cancel, block_eq content hle hbrace, hopen]
  dsimp only
  rw [hall, cut_ofNat, length_between]
  omega

/-- A class whose block does not close is cut off if the ceiling ends before the file. -/
theorem cutOff_of_open {v : View} (hv : v.Faithful) (hcontent : v.content = content)
    (hhead : '{' ∉ between content s.start opening) (hmore : opening + 1 < content.length)
    (hopen : blockAhead? 0 (between content (opening + 1)
      (blockLimit content opening limits.block).toNat) = none)
    (hlimit : (opening + 1 + limits.block : Int) < content.length) :
    CutOff limits content (buildClass limits v s) := by
  -- The ceiling comes before the end of the file, so the block is as long as the ceiling allows.
  have hcut : blockLimit content opening limits.block = opening + 1 + limits.block :=
    Int.min_eq_right (Int.le_of_lt hlimit)
  obtain ⟨inner, hinner⟩ : ∃ inner, inner = between content (opening + 1)
      (blockLimit content opening limits.block).toNat := ⟨_, rfl⟩
  have hlength : inner.length = limits.block.toNat := by
    rw [hinner, length_between, hcut]
    omega
  refine ⟨content.take s.start, between content s.start opening, inner,
    content.drop (opening + 1 + inner.length), ?parts, ?first, hhead, ?more, hlength, ?level⟩
  case parts =>
    have hbehind : inner ++ content.drop (opening + 1 + inner.length) =
        content.drop (opening + 1) := by
      have hprefix : inner <+: content.drop (opening + 1) := by
        rw [hinner]
        exact List.take_prefix _ _
      rw [← List.drop_drop]
      nth_rewrite 1 [List.prefix_iff_eq_take.mp hprefix]
      exact List.take_append_drop _ _
    obtain ⟨hopening, hget⟩ := List.getElem?_eq_some_iff.mp hbrace
    rw [hbehind, ← hget, ← List.drop_eq_getElem_cons hopening, ← List.append_assoc,
      take_append_between content hle, List.take_append_drop]
  case first =>
    show v.lineAt s.start = _
    rw [hv.lineAt, lineAt_ofText, hcontent]
  case more =>
    rw [ne_eq, List.drop_eq_nil_iff]
    omega
  case level =>
    intro n
    have hlevel := level_of_not_blockAhead? _ hopen n
    rw [hinner]
    simpa using hlevel

end

/-- A method whose body opens behind the place where the level falls below zero escapes. -/
theorem escapes_of_level {v : View} (hv : v.Faithful) {f : Function} {start place body : Nat}
    (hstart : start ≤ place) (hplace : place ≤ body) (hbrace : v.content[body]? = some '{')
    (hlevel : level (between v.content start place) < 0)
    (hfirst : f.lineStart = (v.pieceBetween start (blockStop limits v.content body)).first)
    (hlast : f.lineEnd = (v.pieceBetween start (blockStop limits v.content body)).last) :
    Escapes v.content f := by
  obtain ⟨code, hcode⟩ : ∃ code, code = block v.content body body blockFallback limits.block :=
    ⟨_, rfl⟩
  obtain ⟨rest, hrest⟩ : code <+: v.content.drop body := hcode ▸ block_isPrefix _ _ _ _ _
  have hsplit : between v.content start (blockStop limits v.content body) =
      between v.content start body ++ code := by
    have hbody : between v.content body (blockStop limits v.content body) = code := by
      rw [blockStop, between, Nat.add_sub_cancel_left, ← hcode, ← hrest, List.take_left]
    have hbehind : body ≤ blockStop limits v.content body := Nat.le_add_right _ _
    rw [between_split v.content (Nat.le_trans hstart hplace) hbehind, hbody]
  refine ⟨v.content.take start, between v.content start body, code, rest, ?parts, ?brace, ?first,
    ?last, place - start, ?level⟩
  case parts =>
    rw [hrest, ← List.append_assoc, take_append_between _ (Nat.le_trans hstart hplace),
      List.take_append_drop]
  case brace => rw [hrest, List.head?_drop, hbrace]
  case first =>
    rw [hfirst]
    show v.lineAt start = _
    rw [hv.lineAt, lineAt_ofText]
  case last =>
    rw [hlast, hfirst, ← hsplit]
    rfl
  case level =>
    have htake : (between v.content start body).take (place - start) =
        between v.content start place := by
      rw [between, between, List.take_take, Nat.min_eq_left (by omega)]
    rw [htake]
    exact hlevel

/-- The text of a class stops no earlier than what is searched for its methods. -/
theorem innerStop_le (limits : Limits) (content : List Char) (s : Span Unit) :
    s.start + (withoutBrace (block content s.start (s.stop - 1) limits.fallback
      limits.block)).length ≤ classStop limits content s := by
  unfold classStop withoutBrace
  split
  · rw [List.length_dropLast]
    omega
  · exact Nat.le_refl _

/-- A method stands in what is searched for the methods of a class, where as many braces have opened
as closed behind the one that opens the class, and its body opens further on. -/
structure MethodAt (limits : Limits) (v : View) (s : Span Unit) (f : Function) (start body : Nat) :
    Prop where
  behind : s.stop ≤ start
  inside : start ≤ classStop limits v.content s
  balanced : level (between v.content s.stop start) = 0
  before : start ≤ body
  brace : v.content[body]? = some '{'
  first : f.lineStart = (v.pieceBetween start (blockStop limits v.content body)).first
  last : f.lineEnd = (v.pieceBetween start (blockStop limits v.content body)).last

/-- **Where methods stand.** Every method of a class stands in such a place. -/
theorem exists_methodAt {v : View} {s : Span Unit} (hs : s ∈ scan [classRule] v.content)
    {f : Function} (hf : f ∈ (buildClass limits v s).methods) :
    ∃ start body, MethodAt limits v s f start body := by
  obtain ⟨opening, hstop, -, hbrace, -⟩ := classHeader_spec hs
  obtain ⟨m, callable, hm, hread, hbuilt⟩ := exists_of_mem_methods hf
  have hfirst : f.lineStart = (v.pieceBetween (headStart m) callable.stop).first := by rw [hbuilt]; rfl
  have hlast : f.lineEnd = (v.pieceBetween (headStart m) callable.stop).last := by rw [hbuilt]; rfl
  obtain ⟨hparen, hbody, hend⟩ := readCallable_forbidden hread
  have hlength : opening < v.content.length := (List.getElem?_eq_some_iff.mp hbrace).1
  have hstart : s.stop ≤ v.content.length := by omega
  obtain ⟨hbehind, hindent, hin, hbound, -⟩ :=
    headStart_spec hstart (mem_of_mem_atDepthZero hm)
  have hinner := innerStop_le limits v.content s
  rw [hend] at hfirst hlast
  exact ⟨headStart m, callable.bodyStart, by omega, by omega, level_headStart hstart hm, by omega,
    hbody, hfirst, hlast⟩

section

variable {v : View} (hv : v.Faithful) {s : Span Unit} {f : Function} {start body : Nat}
include hv

/-- The last line of a class holds the end of its text. -/
theorem lineEnd_buildClass (limits : Limits) (s : Span Unit) :
    (buildClass limits v s).lineEnd =
      (LineTable.ofText v.content).lineAt (classStop limits v.content s : Nat) :=
  hv.last_piece (block_isPrefix _ _ _ _ _)

/-- A method begins in a line of its class. -/
theorem MethodAt.lineStart_inside (h : MethodAt limits v s f start body) (hle : s.start ≤ s.stop) :
    (buildClass limits v s).lineStart ≤ f.lineStart ∧
      f.lineStart ≤ (buildClass limits v s).lineEnd := by
  have hfirst : f.lineStart = (LineTable.ofText v.content).lineAt (start : Nat) :=
    h.first.trans (hv.lineAt _)
  have hclass : (buildClass limits v s).lineStart =
      (LineTable.ofText v.content).lineAt (s.start : Nat) := hv.lineAt _
  rw [hfirst, hclass, lineEnd_buildClass hv limits s]
  exact ⟨lineAt_mono v.content (Nat.le_trans hle h.behind), lineAt_mono v.content h.inside⟩

/-- If the method stops in the text of its class, it ends in a line of the class. -/
theorem MethodAt.lineEnd_le (h : MethodAt limits v s f start body)
    (hstop : min (blockStop limits v.content body) v.content.length ≤
      classStop limits v.content s) : f.lineEnd ≤ (buildClass limits v s).lineEnd := by
  rw [h.last, lineEnd_buildClass hv limits s]
  exact last_pieceBetween_le hv h.inside hstop

variable {opening : Nat} (hle : s.start ≤ opening) (hbrace : v.content[opening]? = some '{')
  (hstop : s.stop = opening + 1)
include hle hbrace hstop

/-- In a class that closes, a method ends inside the class or is read past its end. -/
theorem MethodAt.ends_or_escapes (h : MethodAt limits v s f start body) {n : Nat}
    (hcloses : blockAhead? 0 (between v.content (opening + 1)
      (blockLimit v.content opening limits.block).toNat) = some n) :
    f.lineEnd ≤ (buildClass limits v s).lineEnd ∨ Escapes v.content f := by
  obtain ⟨-, hfalls, -⟩ := level_of_closes hcloses
  have hclosed := classStop_of_closes hle hbrace hstop hcloses
  have hbehind : opening + 1 ≤ start := hstop ▸ h.behind
  have hinside : start ≤ opening + 1 + n := hclosed ▸ h.inside
  have hbefore := h.before
  by_cases hbody : body < opening + 1 + n
  · -- The body opens inside the class, so it closes there.
    left
    have hnested := length_block_le hcloses h.brace (by omega) hbody blockFallback
    apply h.lineEnd_le hv
    rw [hclosed, blockStop]
    exact Nat.le_trans (Nat.min_le_left _ _) hnested
  · right
    have hlevel : level (between v.content start (opening + 1 + n)) < 0 := by
      have hzero := h.balanced
      rw [hstop] at hzero
      rw [level_between v.content hbehind hinside, hzero] at hfalls
      omega
    exact escapes_of_level hv hinside (by omega) h.brace hlevel h.first h.last

/-- In a class that does not close, a method ends inside the class or the class is cut off. -/
theorem MethodAt.ends_or_cutOff (h : MethodAt limits v s f start body)
    (hhead : '{' ∉ between v.content s.start opening)
    (hopen : blockAhead? 0 (between v.content (opening + 1)
      (blockLimit v.content opening limits.block).toNat) = none) :
    f.lineEnd ≤ (buildClass limits v s).lineEnd ∨
      CutOff limits v.content (buildClass limits v s) := by
  by_cases hlimit : (v.content.length : Int) ≤ opening + 1 + limits.block
  · -- The class goes on to the end of the file.
    left
    apply h.lineEnd_le hv
    rw [classStop_of_open hle hbrace hstop hopen hlimit]
    exact Nat.min_le_right _ _
  · right
    have hbody : body < v.content.length := (List.getElem?_eq_some_iff.mp h.brace).1
    have hbehind := h.behind
    have hbefore := h.before
    exact cutOff_of_open hle hbrace hv rfl hhead (by omega) hopen (Int.lt_of_not_ge hlimit)

end

/-- **Methods.** A method begins in a line of its class. It ends there too, unless it is read past
the end of the class or the class is cut off. -/
theorem methods_inside (limits : Limits) (info : FileInfo) (content : List Char) {c : Class}
    (hc : c ∈ classes limits (View.ofFile info content)) {f : Function} (hf : f ∈ c.methods) :
    c.lineStart ≤ f.lineStart ∧ f.lineStart ≤ c.lineEnd ∧
      (f.lineEnd ≤ c.lineEnd ∨ Escapes content f ∨ CutOff limits content c) := by
  have hv := faithful_ofFile info content
  obtain ⟨s, hs, rfl⟩ := List.mem_map.mp hc
  obtain ⟨opening, hstop, hle, hbrace, hhead⟩ := classHeader_spec hs
  obtain ⟨start, body, hmethod⟩ := exists_methodAt hs hf
  obtain ⟨hfirst, hinside⟩ := hmethod.lineStart_inside hv (by omega)
  refine ⟨hfirst, hinside, ?_⟩
  cases hahead : blockAhead? 0 (between content (opening + 1)
      (blockLimit content opening limits.block).toNat) with
  | some n => exact (hmethod.ends_or_escapes hv hle hbrace hstop hahead).imp_right .inl
  | none => exact (hmethod.ends_or_cutOff hv hle hbrace hstop hhead hahead).imp_right .inr

/-- A class of four lines with a method of two. -/
theorem methods_inside_plain :
    let limits : Limits := ⟨blockFallback, blockCeiling, signatureCeiling, definitionCeiling, 50,
      .ok []⟩
    let content := "class A \x7b\n  m() \x7b\n  \x7d\n\x7d\n".toList
    ∃ c ∈ classes limits (View.ofFile default content), ∃ f ∈ c.methods,
      (c.lineStart, c.lineEnd, f.lineStart, f.lineEnd) = (1, 4, 2, 3) ∧
      c.lineStart ≤ f.lineStart ∧ f.lineStart ≤ c.lineEnd ∧
      (f.lineEnd ≤ c.lineEnd ∨ Escapes content f ∨ CutOff limits content c) := by
  intro limits content
  have hseen : (classes limits (View.ofFile default content)).map (fun c =>
      (c.lineStart, c.lineEnd, c.methods.map fun f => (f.lineStart, f.lineEnd))) =
      [(1, 4, [(2, 3)])] := by
    decide +kernel
  obtain ⟨c, hc, hlines⟩ := List.mem_map.mp (hseen ▸ List.mem_cons_self)
  obtain ⟨hfirst, hlast, hmethods⟩ : c.lineStart = 1 ∧ c.lineEnd = 4 ∧
      (c.methods.map fun f => (f.lineStart, f.lineEnd)) = [(2, 3)] := by
    simpa using hlines
  obtain ⟨f, hf, hmethod⟩ := List.mem_map.mp (hmethods ▸ List.mem_cons_self)
  refine ⟨c, hc, f, hf, ?_, methods_inside limits default content hc hf⟩
  rw [hfirst, hlast]
  simpa using hmethod

/-- **A method behind its class.** The return type of this method is not finished when the class
ends, so it is read on into the function behind, and the body of the function is taken for its own. -/
theorem method_escapes :
    let limits : Limits := ⟨blockFallback, blockCeiling, signatureCeiling, definitionCeiling, 50,
      .ok []⟩
    let content := "class A \x7b\n  foo(): Map<string\n\x7d\nfunction b() \x7b\n\x7d\n".toList
    ∃ c ∈ classes limits (View.ofFile default content), ∃ f ∈ c.methods,
      (c.lineEnd, f.lineEnd) = (3, 5) ∧ ¬f.lineEnd ≤ c.lineEnd := by
  intro limits content
  have hseen : (classes limits (View.ofFile default content)).map (fun c =>
      (c.lineEnd, c.methods.map fun f => f.lineEnd)) = [(3, [5])] := by
    decide +kernel
  obtain ⟨c, hc, hlines⟩ := List.mem_map.mp (hseen ▸ List.mem_cons_self)
  obtain ⟨hlast, hmethods⟩ := Prod.mk.inj hlines
  obtain ⟨f, hf, hmethod⟩ := List.mem_map.mp (hmethods ▸ List.mem_cons_self)
  refine ⟨c, hc, f, hf, by rw [hlast, hmethod], ?_⟩
  rw [hlast, hmethod]
  decide

end CodeSurvey.Extract
