import CodeSurvey.Extract.Functions
import CodeSurvey.Proofs.ExportLines

/-!
# How headers of functions are read

The header of a function can be read in one way only: the text settles which form it has, where its
name stands and where it ends. And once begun it does not run over the start of a line that exports.

- `header`: what stands before a name, the name, and what stands behind it.
- `reads_functionRules`: every form of a function is such a header.
- `HeaderParts.same`: two readings of a form from one place agree.
- `HeaderParts.form_eq`: two forms are not read from one place.
- `clearBehind_header`: headers and the lines that export.
-/

namespace CodeSurvey.Extract

open Text Source Pattern

/-! ## Parts of headers -/

/-- What stands before a name, the name, and what stands behind it. -/
def header (front name tail : Pattern) : Pattern :=
  front ++ (capture "name" name ++ tail)

/-- The words before the one that declares a function. -/
def declarationStart : Pattern :=
  lineStart ++ (opt (capture "export" (lit "export" ++ spaces1 ++ opt (lit "default" ++ spaces1)))
    ++ (opt (lit "declare" ++ spaces1) ++ opt (capture "async" (lit "async" ++ spaces1))))

/-- The words before the one that binds a name. -/
def bindingMark : Pattern :=
  lineStart ++ opt (capture "export" (lit "export" ++ spaces1))

/-- What stands before the name of a function. -/
def headerFront : CallableForm → Pattern
  | .declaration =>
    declarationStart ++ (lit "function" ++ (spaces ++ (opt (lit "*") ++ spaces)))
  | .arrow | .bareArrow | .expression =>
    bindingMark ++ (words ["const", "let", "var"] ++ spaces1)

/-- What stands between a bound name and the equals sign. -/
def typed : CallableForm → Pattern
  | .bareArrow => spaces
  | .declaration | .arrow | .expression => spaces ++ opt (lit ":" ++ annotation)

/-- What stands before the end of the header, behind the equals sign if there is one. -/
def beforeEnd : CallableForm → Pattern
  | .declaration => spaces ++ (generics ++ spaces)
  | .arrow => spaces ++ (opt (capture "async" (lit "async" ++ spaces)) ++ (generics ++ spaces))
  | .bareArrow =>
    spaces ++ (opt (capture "async" (lit "async" ++ spaces1))
      ++ (capture "param" identifier ++ spaces))
  | .expression =>
    spaces ++ (opt (capture "async" (lit "async" ++ spaces1)) ++ (lit "function" ++ (edge ++ (spaces
      ++ (opt (lit "*") ++ (spaces ++ (opt identifier ++ (spaces ++ (generics ++ spaces)))))))))

/-- The sign that ends a header. -/
def headerEnd : CallableForm → String
  | .bareArrow => "=>"
  | .declaration | .arrow | .expression => "("

/-- What stands behind the name of a function. -/
def headerTail (f : CallableForm) : Pattern :=
  match f with
  | .declaration => beforeEnd f ++ lit (headerEnd f)
  | .arrow | .bareArrow | .expression =>
    typed f ++ (lit "=" ++ (beforeEnd f ++ lit (headerEnd f)))

/-- **Forms.** Every form of a function is a header. -/
theorem reads_functionRules : ∀ r ∈ functionRules,
    r.pattern.Reads = (header (headerFront r.tag) identifier (headerTail r.tag)).Reads := by
  intro r hr
  simp only [functionRules, List.mem_cons, List.not_mem_nil, or_false] at hr
  -- The sequences are bracketed in another way, which composition forgets.
  rcases hr with rfl | rfl | rfl | rfl <;>
    simp only [declarationHeader, arrowHeader, bareArrowHeader, expressionHeader, bindingStart,
      header, headerFront, headerTail, declarationStart, bindingMark, typed, beforeEnd,
      headerEnd, seqs_cons_cons, seqs_singleton, reads_seq, Relation.comp_assoc]

/-- A header is read in three parts: up to the name, over it, and behind it. -/
structure HeaderParts (front name tail : Pattern) (s u v t : State) : Prop where
  front : front.Reads s u
  name : name.Reads u v
  tail : tail.Reads { v with kept := ⟨"name", u.offset, v.offset⟩ :: v.kept } t

variable {front front' name tail tail' : Pattern} {s s' u u' v v' t t' : State} {f g : CallableForm}

theorem reads_header_iff :
    (header front name tail).Reads s t ↔ ∃ u v, HeaderParts front name tail s u v t := by
  constructor
  · rintro ⟨u, hfront, _, ⟨v, hname, rfl⟩, htail⟩
    exact ⟨u, v, hfront, hname, htail⟩
  · rintro ⟨u, v, hfront, hname, htail⟩
    exact ⟨u, hfront, _, ⟨v, hname, rfl⟩, htail⟩

/-- The name is what is kept as such. -/
theorem HeaderParts.group? (h : HeaderParts front name tail s u v t) (htail : tail.plain = true)
    (hkeys : "name" ∉ tail.keys) (subject : List Char) (start stop : Nat) :
    (Match.mk subject start stop t.kept).group? "name" =
      some (between subject u.offset v.offset) := by
  have hspan : t.span? "name" = some ⟨"name", u.offset, v.offset⟩ :=
    span?_of_reads htail hkeys h.tail
  rw [Match.group?, Match.span?]
  rw [State.span?] at hspan
  rw [hspan, Option.map_some]

/-! ## One reading only -/

/-- The name of a function begins where the text in front of it tells. -/
theorem HeaderParts.front_same (h : HeaderParts (headerFront f) identifier tail s u v t)
    (h' : HeaderParts (headerFront f) identifier tail' s' u' v' t') (hsame : SamePlace s s') :
    SamePlace u u' := by
  cases f with
  | declaration =>
    obtain ⟨a, hstart, b, hword, hrest⟩ := h.front
    obtain ⟨a', hstart', b', hword', hrest'⟩ := h'.front
    -- Of the words in front of the name only the last one has this letter.
    have hstarts : declarationStart.throughout (·.within (.compl (.char 'i'))) = true := by decide
    have hbefore := hsame.before_word (by decide) hstarts hstart hword hstarts hstart' hword'
    have hstops : stopsBefore (.union .space (.char '*')) (spaces ++ (opt (lit "*") ++ spaces))
      identifier = true := by decide
    exact (hbefore.word hword hword').until hstops hrest h.name hstops hrest' h'.name
  | _ =>
    obtain ⟨a, hmark, b, hwords, hspaces⟩ := h.front
    obtain ⟨a', hmark', b', hwords', hspaces'⟩ := h'.front
    have hmarks : stopsBefore (.union (.ofString "export") .space) bindingMark
      (words ["const", "let", "var"]) = true := by decide
    have hletters : stopsBefore .letters (words ["const", "let", "var"]) spaces1 = true := by decide
    have hblanks : stopsBefore .space spaces1 identifier = true := by decide
    have hbefore := hsame.until hmarks hmark hwords hmarks hmark' hwords'
    have hbehind := hbefore.until hletters hwords hspaces hletters hwords' hspaces'
    exact hbehind.until hblanks hspaces h.name hblanks hspaces' h'.name

theorem name_throughout :
    (capture "name" identifier).throughout (·.within identifierRest) = true := by
  decide +kernel

/-- The name of a function ends where no further character of an identifier follows. -/
theorem HeaderParts.name_same (h : HeaderParts front identifier (headerTail f) s u v t)
    (h' : HeaderParts front' identifier (headerTail g) s' u' v' t') (hsame : SamePlace u u') :
    SamePlace v v' := by
  have hstops (f : CallableForm) :
      stopsBefore identifierRest (capture "name" identifier) (headerTail f) = true := by
    rw [stopsBefore, name_throughout]
    cases f <;> decide
  have hkept := hsame.until (hstops f) ⟨v, h.name, rfl⟩ h.tail (hstops g) ⟨v', h'.name, rfl⟩ h'.tail
  exact hkept.keep v.kept v'.kept

/-- What stands behind the name of a bound function ends in its last part, which begins behind the
first equals sign. -/
theorem exists_beforeEnd (hf : f ≠ .declaration) (h : (headerTail f).Reads s t) :
    ∃ a b, ((typed f).Reads s a ∧ (lit "=").Reads a b) ∧
      (beforeEnd f ++ lit (headerEnd f)).Reads b t := by
  cases f with
  | declaration => contradiction
  | _ =>
    obtain ⟨a, htyped, b, hequals, hlast⟩ := h
    exact ⟨a, b, ⟨htyped, hequals⟩, hlast⟩

/-- The equals sign stands where the text tells, whatever the forms are. -/
theorem equals_same {a a' b b' : State} (hsame : SamePlace s s')
    (h : (typed f).Reads s a ∧ (lit "=").Reads a b)
    (h' : (typed g).Reads s' a' ∧ (lit "=").Reads a' b') : SamePlace b b' := by
  have hstops (f : CallableForm) :
      stopsBefore (.compl (.char '=')) (typed f) (lit "=") = true := by
    cases f <;> decide
  exact (hsame.until (hstops f) h.1 h.2 (hstops g) h'.1 h'.2).word h.2 h'.2

/-- The last part of a header ends where the text tells. -/
theorem end_same (hsame : SamePlace s s') (h : (beforeEnd f ++ lit (headerEnd f)).Reads s t)
    (h' : (beforeEnd f ++ lit (headerEnd f)).Reads s' t') : SamePlace t t' := by
  obtain ⟨a, hmiddle, hend⟩ := h
  obtain ⟨a', hmiddle', hend'⟩ := h'
  have hstops : ∃ set, stopsBefore set (beforeEnd f) (lit (headerEnd f)) = true := by
    cases f with
    | bareArrow => exact ⟨.compl (.char '='), by decide⟩
    | _ => exact ⟨.compl (.char '('), by decide⟩
  obtain ⟨set, hstops⟩ := hstops
  exact (hsame.until hstops hmiddle hend hstops hmiddle' hend').word hend hend'

/-- **One reading.** From one place the header of a form is read in one way: its name stands in one
place, and it ends in one place. -/
theorem HeaderParts.same
    (h : HeaderParts (headerFront f) identifier (headerTail f) s u v t)
    (h' : HeaderParts (headerFront f) identifier (headerTail f) s' u' v' t')
    (hsame : SamePlace s s') : SamePlace u u' ∧ SamePlace v v' ∧ SamePlace t t' := by
  have hfront := h.front_same h' hsame
  have hname := h.name_same h' hfront
  refine ⟨hfront, hname, ?_⟩
  by_cases hf : f = .declaration
  · subst hf
    exact end_same (hname.keep _ _) h.tail h'.tail
  · obtain ⟨a, b, hequals, hlast⟩ := exists_beforeEnd hf h.tail
    obtain ⟨a', b', hequals', hlast'⟩ := exists_beforeEnd hf h'.tail
    exact end_same (equals_same (hname.keep _ _) hequals hequals') hlast hlast'

/-! ## One form only -/

/-- The first letter of a declaration, past the word for exports, is none of a bound function. -/
theorem not_declaration (hg : g ≠ .declaration) (hsame : SamePlace s s')
    (h : (headerFront .declaration).Reads s u) : ¬(headerFront g).Reads s' u' := by
  have hdeclaration : (headerFront .declaration).beginsPast
      (.union .space (.ofString "export")) (.ofString "daf") = true := by decide
  have hbinding : (headerFront g).beginsPast
      (.union .space (.ofString "export")) (.ofString "clv") = true := by
    cases g with
    | declaration => contradiction
    | _ => decide
  exact not_apart hsame hdeclaration hbinding (by decide) h

/-- Behind the equals sign the forms of bound functions begin differently. -/
theorem not_both (hf : f ≠ .declaration) (hg : g ≠ .declaration) (hne : f ≠ g)
    (hsame : SamePlace s s') (h : (beforeEnd f ++ lit (headerEnd f)).Reads s t) :
    ¬(beforeEnd g ++ lit (headerEnd g)).Reads s' t' := by
  -- A bare parameter is told by the second equals sign.
  have hbare : (beforeEnd .bareArrow ++ lit (headerEnd .bareArrow)).beginsPast
      (.union .space identifierRest) (.char '=') = true := by decide
  have hother (f : CallableForm) (hf : f ≠ .declaration) (hb : f ≠ .bareArrow) :
      (beforeEnd f ++ lit (headerEnd f)).beginsPast (.union .space identifierRest)
        (.ofString "*<(") = true := by
    cases f with
    | declaration => contradiction
    | bareArrow => contradiction
    | _ => decide
  -- Arrows are told from expressions by the word that stands there or does not.
  have harrow : (beforeEnd .arrow ++ lit (headerEnd .arrow)).beginsPast
      (.union .space (.ofString "async")) (.ofString "<(") = true := by decide
  have hexpression : (beforeEnd .expression ++ lit (headerEnd .expression)).beginsPast
      (.union .space (.ofString "async")) (.char 'f') = true := by decide
  cases f with
  | declaration => contradiction
  | bareArrow => exact not_apart hsame hbare (hother g hg (Ne.symm hne)) (by decide) h
  | arrow =>
    cases g with
    | declaration => contradiction
    | arrow => contradiction
    | bareArrow => exact not_apart hsame (hother _ hf hne) hbare (by decide) h
    | expression => exact not_apart hsame harrow hexpression (by decide) h
  | expression =>
    cases g with
    | declaration => contradiction
    | expression => contradiction
    | bareArrow => exact not_apart hsame (hother _ hf hne) hbare (by decide) h
    | arrow => exact not_apart hsame hexpression harrow (by decide) h

/-- **One form.** No two forms of functions are read from one place. -/
theorem HeaderParts.form_eq
    (h : HeaderParts (headerFront f) identifier (headerTail f) s u v t)
    (h' : HeaderParts (headerFront g) identifier (headerTail g) s' u' v' t')
    (hsame : SamePlace s s') : f = g := by
  by_contra hne
  by_cases hf : f = .declaration
  · subst hf
    exact not_declaration (Ne.symm hne) hsame h.front h'.front
  · by_cases hg : g = .declaration
    · subst hg
      exact not_declaration hf hsame.symm h'.front h.front
    · -- Bound functions have the same words in front of their names.
      have hfront : headerFront f = headerFront g := by
        cases f <;> cases g <;> first | rfl | contradiction
      rw [hfront] at h
      have hname := h.name_same h' (h.front_same h' hsame)
      obtain ⟨a, b, hequals, hlast⟩ := exists_beforeEnd hf h.tail
      obtain ⟨a', b', hequals', hlast'⟩ := exists_beforeEnd hg h'.tail
      exact not_both hf hg hne (equals_same (hname.keep _ _) hequals hequals') hlast hlast'

/-! ## Lines that export -/

/-- What stands in front of a name runs over no line that exports but the one it begins. -/
theorem clearBehind_headerFront (f : CallableForm) : (headerFront f).ClearBehind := by
  have hexport : (lit "export").ClearBehind := clearBehind_of_line (by decide)
  have hspaces : spaces1.Clear := clear_of_avoids (by decide)
  cases f with
  | declaration =>
    have hdefault : (opt (lit "default" ++ spaces1)).Clear := clear_of_avoids (by decide)
    have hmark := (((hexport.seq hspaces).seq hdefault).capture "export").opt
    have hmore : (opt (lit "declare" ++ spaces1)
        ++ opt (capture "async" (lit "async" ++ spaces1))).Clear := clear_of_avoids (by decide)
    exact ((hmark.seq hmore).anchored .lineStart).seq (clear_of_avoids (by decide))
  | _ =>
    have hmark := ((hexport.seq hspaces).capture "export").opt
    exact (hmark.anchored .lineStart).seq (clear_of_avoids (by decide))

/-- What avoids such lines, with a name in it that has a sign behind, runs over none of them. -/
theorem clear_of_parts {p before word behind : Pattern}
    (hparts : p.Reads = (before ++ (word ++ behind)).Reads) (hbefore : before.avoids = true)
    (hword : word.throughout (·.within identifierRest) = true)
    (hsign : behind.beginsPast .space (.compl identifierRest) = true)
    (hbehind : behind.avoids = true) : p.Clear := by
  have hclear : (before ++ (word ++ behind)).Clear :=
    (clear_of_avoids hbefore).seq (clear_name hword hsign (clear_of_avoids hbehind))
  intro s t u hreads
  rw [hparts] at hreads
  exact hclear s t u hreads

/-- Nor does what stands behind a name run over a line that exports. -/
theorem clear_headerTail (f : CallableForm) : (headerTail f).Clear := by
  cases f with
  | declaration => exact clear_of_avoids (by decide)
  | arrow => exact clear_of_avoids (by decide)
  | bareArrow =>
    -- The parameter may be called as the word for exports, but an arrow follows it.
    have hparts : (headerTail .bareArrow).Reads = ((typed .bareArrow ++ (lit "=" ++ (spaces
        ++ opt (capture "async" (lit "async" ++ spaces1))))) ++ (capture "param" identifier
        ++ (spaces ++ lit (headerEnd .bareArrow)))).Reads := by
      simp only [headerTail, beforeEnd, reads_seq, Relation.comp_assoc]
    exact clear_of_parts hparts (by decide) (by decide) (by decide) (by decide)
  | expression =>
    -- So may the function itself, but its parameters follow.
    have hparts : (headerTail .expression).Reads = ((typed .expression ++ (lit "=" ++ (spaces
        ++ (opt (capture "async" (lit "async" ++ spaces1)) ++ (lit "function" ++ (edge ++ (spaces
        ++ (opt (lit "*") ++ spaces)))))))) ++ (opt identifier
        ++ (spaces ++ (generics ++ (spaces ++ lit (headerEnd .expression)))))).Reads := by
      simp only [headerTail, beforeEnd, reads_seq, Relation.comp_assoc]
    exact clear_of_parts hparts (by decide) (by decide) (by decide) (by decide)

/-- **Headers stop in front of exports.** A header runs over no line that exports but the one it
begins. -/
theorem clearBehind_header (f : CallableForm) :
    (header (headerFront f) identifier (headerTail f)).ClearBehind := by
  have hsign : (headerTail f).beginsPast .space (.compl identifierRest) = true := by
    cases f <;> decide
  exact (clearBehind_headerFront f).seq (clear_name name_throughout hsign (clear_headerTail f))

end CodeSurvey.Extract
