import CodeSurvey.Proofs.Pieces
import Mathlib.Data.List.DropRight

/-!
# Split lists

The chunks into which a list is split are pieces: neither the comments that are dropped nor the
blanks that are trimmed bring a separator out of the brackets and literals in which it stands. So a
chunk that is split again stays as it is, and chunks that are joined again come apart where they
were joined.

- `exists_comment`: a text that opens a comment starts with one.
- `reach_of_mem_pieces`: every piece of a text is read as one piece, comments left out.
- `exists_reach_trim`: a piece without the blanks around it is a piece.
- `Separate`: chunks that come apart again when they are joined.
- `splitTopLevel_stable`: chunks are atomic, and splitting is stable.
-/

namespace CodeSurvey.Source

open Text Reading

/-! ## Comments -/

/-- Up to a closing mark a block comment goes, or to the end of the text. -/
theorem exists_blockComment (text : List Char) :
    (∃ body rest, text = body ++ '*' :: '/' :: rest ∧ ¬ ['*', '/'] <:+: body ++ ['*']) ∨
      ¬ ['*', '/'] <:+: text := by
  induction text with
  | nil => exact .inr (by decide)
  | cons c text ih =>
    -- Either the mark stands right here, or it is sought behind the character.
    by_cases hcloses : ∃ rest, c :: text = '*' :: '/' :: rest
    · obtain ⟨rest, htext⟩ := hcloses
      exact .inl ⟨[], rest, htext, by decide⟩
    · rcases ih with ⟨body, rest, rfl, hbody⟩ | hopen
      · refine .inl ⟨c :: body, rest, rfl, ?_⟩
        rw [List.cons_append, List.infix_cons_iff, not_or]
        refine ⟨?_, hbody⟩
        rintro ⟨more, hmore⟩
        obtain ⟨rfl, hbehind⟩ := List.cons.inj hmore
        apply hcloses
        cases body with
        | nil => simp at hbehind
        | cons d body =>
          obtain rfl : '/' = d := (List.cons.inj hbehind).1
          exact ⟨_, rfl⟩
      · right
        rw [List.infix_cons_iff, not_or]
        refine ⟨?_, hopen⟩
        rintro ⟨more, hmore⟩
        exact hcloses ⟨more, hmore.symm⟩

/-- A text that opens a comment starts with one. -/
theorem exists_comment {text : List Char} (h : OpensComment text) :
    ∃ comment rest, text = comment ++ rest ∧ IsComment comment rest := by
  obtain ⟨d, text, rfl, rfl | rfl⟩ := h
  · refine ⟨'/' :: '/' :: text.takeWhile (· != '\n'), text.dropWhile (· != '\n'), by simp,
      .inl ⟨_, rfl, ?_, ?_⟩⟩
    · intro hfeed
      simpa using List.mem_takeWhile_imp hfeed
    · have hhead := List.head?_dropWhile_not (· != '\n') text
      cases hrest : text.dropWhile (· != '\n') with
      | nil => exact .inl rfl
      | cons c rest =>
        rw [hrest] at hhead
        exact .inr (by simpa using hhead)
  · rcases exists_blockComment text with ⟨body, rest, rfl, hbody⟩ | hopen
    · exact ⟨'/' :: '*' :: (body ++ ['*', '/']), rest, by simp, .inr (.inl ⟨body, rfl, hbody⟩)⟩
    · exact ⟨'/' :: '*' :: text, [], by simp, .inr (.inr ⟨text, rfl, hopen, rfl⟩)⟩

/-! ## Pieces of texts with comments -/

section

variable {separators : List Char} {here there : Reading} {c : Char}

/-- How a scan over a text stands to the one that reads its piece again, without the comments: the
second one is as deep or deeper, since an equals sign and an angle bracket that a comment held apart
make an arrow. -/
structure Tracks (here there : Reading) (text : List Char) : Prop where
  lit : there.lit = here.lit
  depth : here.depth ≤ there.depth
  closes : ∀ c, closesTopLevel there.previous c → closesTopLevel here.previous c
  starts : ∀ c, text.head? = some c → ¬ there.StartsComment c

theorem closesTopLevel_mono {first second : Option Char}
    (h : first.any (· != '=') → second.any (· != '=')) (hcloses : closesTopLevel first c) :
    closesTopLevel second c := by
  simp only [closesTopLevel, Bool.or_eq_true, Bool.and_eq_true] at hcloses ⊢
  exact hcloses.imp id (And.imp id h)

/-- At the start of a piece both scans stand alike, whichever separator stands before. -/
theorem tracks_start (text : List Char) (previous : Option Char) :
    Tracks ⟨.code, 0, previous⟩ start text where
  lit := rfl
  depth := Nat.le_refl 0
  closes c := closesTopLevel_mono fun hnone => by simp [start] at hnone
  starts c _ hstarts := by
    obtain ⟨-, hprevious, -⟩ := hstarts
    contradiction

/-- A literal ends in a quote, so behind another character a text that is in code was so before. -/
theorem codeText_of_concat {text : List Char} (hquote : isQuote c = false)
    (h : CodeText (text ++ [c])) : CodeText text := by
  generalize hwhole : text ++ [c] = whole at h
  induction h generalizing text with
  | empty => simp at hwhole
  | @plain d rest hplain hrest ih =>
    cases text with
    | nil => exact .empty
    | cons e text =>
      obtain ⟨rfl, htext⟩ := List.cons.inj hwhole
      exact .plain hplain (ih htext)
  | @literal quote body rest hopens hbody hrest ih =>
    rcases List.eq_nil_or_concat rest with rfl | ⟨more, d, rfl⟩
    · -- Here the literal would be the end of the text.
      have hends : text ++ [c] = (quote :: body) ++ [quote] := hwhole
      obtain rfl : c = quote := (List.cons.inj (List.append_inj' hends rfl).2).1
      rw [hquote] at hopens
      contradiction
    · have hends : text ++ [c] = (quote :: (body ++ quote :: more)) ++ [d] := by
        rw [hwhole, List.concat_eq_append]
        simp
      obtain ⟨rfl, hlast⟩ := List.append_inj' hends rfl
      obtain rfl : c = d := (List.cons.inj hlast).1
      exact .literal hopens hbody (ih (List.concat_eq_append ..).symm)

/-- Along a character that is no part of a comment and does not split the text, both scans go on. -/
theorem Tracks.next {text piece : List Char}
    (hreach : reach separators start piece = some there) (h : Tracks here there (c :: text))
    (hcomment : ¬ (here.lit = .code ∧ OpensComment (c :: text)))
    (hsplit : ¬ here.Splits separators c) :
    reach separators start (piece ++ [c]) = some (there.next c) ∧
      Tracks (here.next c) (there.next c) text := by
  have hstarts := h.starts c rfl
  have hsplits : ¬ there.Splits separators c := by
    rintro ⟨hcode, hdepth, hsep⟩
    have hless := h.depth
    exact hsplit ⟨h.lit ▸ hcode, by omega, hsep⟩
  have hnext : reach separators start (piece ++ [c]) = some (there.next c) := by
    rw [reach_append, hreach, Option.bind_some]
    exact reach_cons_eq_some_iff.mpr ⟨hstarts, hsplits, rfl⟩
  refine ⟨hnext, ?_, ?_, fun d hd => hd, ?_⟩
  case refine_1 =>
    show there.lit.step c = here.lit.step c
    rw [h.lit]
  case refine_2 =>
    have hless := h.depth
    have hcloses := h.closes c
    show here.depthAfter c ≤ there.depthAfter c
    unfold depthAfter
    rw [h.lit]
    grind
  case refine_3 =>
    -- The slash of a comment's mark is code, since no literal ends in it.
    rintro d hd ⟨hcode, hslash, hmark⟩
    obtain rfl : c = '/' := Option.some.inj hslash
    have hbefore := codeText_of_concat (by decide) ((reach_start hnext).1.mp hcode)
    obtain ⟨more, rfl⟩ := List.head?_eq_some_iff.mp hd
    exact hcomment ⟨h.lit ▸ (reach_start hreach).1.mpr hbefore, d, more, rfl, hmark⟩

/-- Every piece of a text is read as one piece, comments left out. The induction is on the length of
the text, since a comment is dropped as a whole. -/
theorem reach_of_mem_pieces (hseparators : ∀ c ∈ separators, isSeparator c) (text : List Char) :
    ∀ {here there : Reading} {piece : List Char},
      reach separators start piece.reverse = some there → Tracks here there text →
      ∀ found ∈ pieces separators (.source here.lit) here.previous here.depth piece text,
        ∃ last, reach separators start found = some last := by
  induction hlength : text.length using Nat.strong_induction_on generalizing text with
  | _ length ih =>
    subst hlength
    intro here there piece hreach htracks found hfound
    cases text with
    | nil =>
      rw [pieces, List.mem_singleton] at hfound
      exact ⟨there, hfound ▸ hreach⟩
    | cons c text =>
      by_cases hcomment : here.lit = .code ∧ OpensComment (c :: text)
      · obtain ⟨hcode, hopens⟩ := hcomment
        obtain ⟨comment, rest, htext, hcomment⟩ := exists_comment hopens
        have hshorter : rest.length < (c :: text).length := by
          obtain ⟨more, rfl⟩ := hcomment.head
          rw [htext, List.length_append, List.length_cons]
          omega
        rw [htext, hcode, pieces_comment separators hcomment] at hfound
        -- The comment starts with a slash, so what was read before it does not end in one.
        have hslash (d : Char) : ¬ there.StartsComment d := by
          rintro ⟨hlit, hprevious, -⟩
          obtain ⟨mark, more, htext, -⟩ := hopens
          obtain ⟨rfl, -⟩ := List.cons.inj htext
          exact htracks.starts '/' rfl ⟨hlit, hprevious, .inl rfl⟩
        have hbehind : Tracks ⟨.code, here.depth, some '/'⟩ there rest :=
          ⟨htracks.lit.trans hcode, htracks.depth,
            fun d => closesTopLevel_mono fun _ => rfl, fun d _ => hslash d⟩
        exact ih _ hshorter rest rfl hreach hbehind found hfound
      · rw [pieces_cons hseparators here hcomment] at hfound
        by_cases hsplit : here.Splits separators c
        · rw [if_pos hsplit] at hfound
          rcases List.mem_cons.mp hfound with rfl | hfound
          · exact ⟨there, hreach⟩
          · have hnothing : reach separators start ([] : List Char).reverse = some start := rfl
            exact ih text.length (Nat.lt_succ_self _) text rfl hnothing
              (tracks_start text (some c)) found hfound
        · rw [if_neg hsplit] at hfound
          obtain ⟨hnext, hgoes⟩ := htracks.next hreach hcomment hsplit
          exact ih text.length (Nat.lt_succ_self _) text rfl
            (by rw [List.reverse_cons]; exact hnext) hgoes found hfound

end

/-! ## Blanks around a piece -/

section

variable {separators text : List Char} {here there : Reading}

/-- Blanks are no quotes, no brackets and no part of a comment's mark. -/
theorem isSpace_plain {c : Char} (h : isSpace c) :
    c ≠ '/' ∧ isQuote c = false ∧ isTypeBracket c = false := by
  have hother (d : Char) (hd : isSpace d = false) : (c == d) = false := by
    rw [beq_eq_false_iff_ne]
    rintro rfl
    rw [h] at hd
    contradiction
  refine ⟨beq_eq_false_iff_ne.mp (hother _ (by decide)), ?_, ?_⟩ <;>
    simp [isQuote, isTypeBracket, isTypeOpener, isOpener, isCloser, hother, isSpace]

/-- Blanks outside literals are read and leave no trace. -/
theorem reach_blanks {blanks : List Char} (hblanks : ∀ c ∈ blanks, isSpace c) :
    ∀ {here : Reading}, here.lit = .code → reach separators here blanks = some there →
      there.lit = .code ∧ there.depth = here.depth ∧
        (here.previous ≠ some '/' → there.previous ≠ some '/') := by
  induction blanks with
  | nil =>
    intro here hcode h
    obtain rfl : here = there := Option.some.inj h
    exact ⟨hcode, rfl, id⟩
  | cons c blanks ih =>
    intro here hcode h
    obtain ⟨hc, hblanks⟩ := List.forall_mem_cons.mp hblanks
    obtain ⟨hslash, hquote, hbracket⟩ := isSpace_plain hc
    obtain ⟨hopener, hcloser⟩ := isTypeBracket_plain hbracket here.previous
    obtain ⟨-, -, hrest⟩ := reach_cons_eq_some_iff.mp h
    have hlit : (here.next c).lit = .code := by simp [Reading.next, Literal.step, hcode, hquote]
    have hdepth : (here.next c).depth = here.depth := by
      simp [Reading.next, depthAfter, hopener, hcloser]
    obtain ⟨hcode, hsame, hprevious⟩ := ih hblanks hlit hrest
    refine ⟨hcode, hsame.trans hdepth, fun _ => hprevious ?_⟩
    simpa [Reading.next] using hslash

/-- Blanks at the end of a text are in code only if the text before them ends in code. -/
theorem codeText_of_blanks {blanks : List Char} (hblanks : ∀ c ∈ blanks, isSpace c)
    (h : CodeText (text ++ blanks)) : CodeText text := by
  induction blanks using List.reverseRecOn with
  | nil => rwa [List.append_nil] at h
  | append_singleton blanks c ih =>
    obtain ⟨-, hquote, -⟩ := isSpace_plain (hblanks c (by simp))
    rw [← List.append_assoc] at h
    exact ih (fun d hd => hblanks d (List.mem_append_left _ hd)) (codeText_of_concat hquote h)

/-- What is read as one piece is so without the blanks at its start. -/
theorem exists_reach_trimStart (h : reach separators start text = some there) :
    ∃ last, reach separators start (trimStart text) = some last ∧ last.lit = there.lit ∧
      last.depth = there.depth := by
  have hblanks (c : Char) (hc : c ∈ text.takeWhile isSpace) : isSpace c :=
    List.mem_takeWhile_imp hc
  rw [← List.takeWhile_append_dropWhile (p := isSpace) (l := text), reach_append,
    Option.bind_eq_some_iff] at h
  obtain ⟨middle, hstart, hrest⟩ := h
  obtain ⟨hcode, hdepth, hprevious⟩ := reach_blanks hblanks rfl hstart
  have hmiddle : middle = ⟨.code, 0, middle.previous⟩ := by
    rw [← hcode, show 0 = middle.depth from hdepth.symm]
  have hslash : middle.previous ≠ some '/' := hprevious (by simp [start])
  rw [trimStart]
  cases hinner : text.dropWhile isSpace with
  | nil =>
    rw [hinner] at hrest
    obtain rfl : middle = there := Option.some.inj hrest
    exact ⟨start, rfl, hcode.symm, hdepth.symm⟩
  | cons c rest =>
    -- Only blanks were read so far, so the piece may as well start here.
    rw [hinner, reach_cons, hmiddle, step_start hslash, ← reach_cons] at hrest
    exact ⟨there, hrest, rfl, rfl⟩

/-- What is read as one piece is so without the blanks at its end, and closes what it closed. -/
theorem exists_reach_trimEnd (h : reach separators start text = some there) :
    ∃ last, reach separators start (trimEnd text) = some last ∧
      (there.lit = .code → last.lit = .code ∧ last.depth = there.depth) := by
  have hsplit : trimEnd text ++ text.rtakeWhile isSpace = text :=
    List.rdropWhile_append_rtakeWhile ..
  have hblanks (c : Char) (hc : c ∈ text.rtakeWhile isSpace) : isSpace c :=
    List.mem_rtakeWhile_imp hc
  have hwhole := h
  rw [← hsplit, reach_append, Option.bind_eq_some_iff] at h
  obtain ⟨last, hfront, hrest⟩ := h
  refine ⟨last, hfront, fun hcode => ?_⟩
  have htext := (reach_start hwhole).1.mp hcode
  rw [← hsplit] at htext
  have hlast := (reach_start hfront).1.mpr (codeText_of_blanks hblanks htext)
  obtain ⟨-, hdepth, -⟩ := reach_blanks hblanks hlast hrest
  exact ⟨hlast, hdepth.symm⟩

/-- **Trimming.** What is read as one piece is so without the blanks around it, and it still ends
outside literals and brackets if it did. -/
theorem exists_reach_trim (h : reach separators start text = some there) :
    ∃ last, reach separators start (trim text) = some last ∧
      (there.lit = .code → last.lit = .code ∧ last.depth = there.depth) := by
  obtain ⟨middle, hmiddle, hlit, hdepth⟩ := exists_reach_trimStart h
  obtain ⟨last, hlast, hkept⟩ := exists_reach_trimEnd hmiddle
  rw [hlit, hdepth] at hkept
  exact ⟨last, hlast, hkept⟩

/-- Trimmed text is trimmed. -/
theorem trim_trim (text : List Char) : trim (trim text) = trim text := by
  have hstart : trimStart (trim text) = trim text := by
    cases htrim : trim text with
    | nil => rfl
    | cons c rest =>
      obtain ⟨more, hmore⟩ : trim text <+: trimStart text := List.rdropWhile_prefix ..
      have hhead := List.head?_dropWhile_not isSpace text
      rw [htrim] at hmore
      rw [← trimStart, ← hmore] at hhead
      exact List.dropWhile_cons_of_neg (Bool.not_eq_true _ ▸ hhead)
  rw [trim, hstart]
  exact List.rdropWhile_idempotent ..

/-- A trimmed piece that is split again is left as it is. -/
theorem splitTopLevel_of_reach (hseparators : ∀ c ∈ separators, isSeparator c)
    (h : reach separators start text = some there) (htrim : trim text = text) (hne : text ≠ []) :
    splitTopLevel text separators = [text] := by
  rw [splitTopLevel, pieces_of_reach hseparators h]
  simp [htrim, hne]

/-- A separator in a piece stands in a literal or in a bracket. -/
theorem enclosed_of_reach {place : Nat} {c : Char} (h : reach separators start text = some there)
    (hget : text[place]? = some c) (hc : c ∈ separators) (hcode : CodeAt text 0 place) :
    Enclosed text place := by
  obtain ⟨hplace, hget⟩ := List.getElem?_eq_some_iff.mp hget
  rw [← List.take_append_drop place text, List.drop_eq_getElem_cons hplace, hget, reach_append,
    Option.bind_eq_some_iff] at h
  obtain ⟨here, hfront, hrest⟩ := h
  obtain ⟨-, hsplit, -⟩ := reach_cons_eq_some_iff.mp hrest
  have hlit := (reach_start hfront).1.mpr (codeAt_zero_iff.mp hcode)
  by_contra hopen
  have hdepth := (depth_eq_zero_iff (Nat.le_of_lt hplace) hfront).mpr hopen
  exact hsplit ⟨hlit, hdepth, hc⟩

end

/-! ## Texts without comments -/

/-- Whether no comment starts anywhere in a text, literals included. -/
def Uncommented (text : List Char) : Prop :=
  ¬ ['/', '/'] <:+: text ∧ ¬ ['/', '*'] <:+: text

instance (text : List Char) : Decidable (Uncommented text) :=
  inferInstanceAs (Decidable (_ ∧ _))

/-- Chunks that come apart where they are joined: each is read as one piece, and each but the last
ends outside literals and brackets. -/
def Separate (separators : List Char) : List (List Char) → Prop
  | [] => True
  | [last] => ∃ there, reach separators start last = some there
  | chunk :: more =>
    (∃ previous, reach separators start chunk = some ⟨.code, 0, previous⟩) ∧
      Separate separators more

section

variable {separators text : List Char}

theorem Uncommented.of_append {front : List Char} (h : Uncommented (front ++ text)) :
    Uncommented text :=
  ⟨fun hline => h.1 (hline.trans (List.suffix_append ..).isInfix),
    fun hblock => h.2 (hblock.trans (List.suffix_append ..).isInfix)⟩

/-- In a text without comments no mark ends where a piece has been read to: its slash would be the
last character of what has been read. -/
theorem Uncommented.not_startsComment {front back : List Char} {c : Char} {there : Reading}
    (h : Uncommented (front ++ c :: back)) (hfront : reach separators start front = some there) :
    ¬ there.StartsComment c := by
  rintro ⟨-, hslash, hmark⟩
  rw [(reach_start hfront).2, List.getLast?_eq_some_iff] at hslash
  obtain ⟨before, rfl⟩ := hslash
  rcases hmark with rfl | rfl
  · exact h.1 ⟨before, back, by simp⟩
  · exact h.2 ⟨before, back, by simp⟩

/-- **Pieces.** A text without comments is one piece, or its first piece ends at a separator outside
literals and brackets. -/
theorem pieces_cases (hseparators : ∀ c ∈ separators, isSeparator c) (h : Uncommented text) :
    (∃ there, reach separators start text = some there ∧
        pieces separators (.source .code) none 0 [] text = [text]) ∨
      ∃ front c back previous, text = front ++ c :: back ∧ c ∈ separators ∧
        reach separators start front = some ⟨.code, 0, previous⟩ ∧
        pieces separators (.source .code) none 0 [] text =
          front :: pieces separators (.source .code) none 0 [] back := by
  cases hreach : reach separators start text with
  | some there => exact .inl ⟨there, rfl, pieces_of_reach hseparators hreach⟩
  | none =>
    obtain ⟨front, c, back, there, rfl, hfront, hcomment | ⟨hcode, hdepth, hc⟩⟩ :=
      exists_of_reach_eq_none text hreach
    · exact absurd hcomment (h.not_startsComment hfront)
    · have hthere : there = ⟨.code, 0, there.previous⟩ := by
        rw [← hcode, ← hdepth]
      rw [hthere] at hfront
      refine .inr ⟨front, c, back, there.previous, rfl, hc, hfront, ?_⟩
      rw [pieces_reach_separator hseparators hfront hc, pieces_previous hseparators]

theorem Separate.cons {chunk : List Char} {more : List (List Char)} {previous : Option Char}
    (hchunk : reach separators start chunk = some ⟨.code, 0, previous⟩)
    (hmore : Separate separators more) : Separate separators (chunk :: more) := by
  cases more with
  | nil => exact ⟨_, hchunk⟩
  | cons next more => exact ⟨⟨previous, hchunk⟩, hmore⟩

/-- The pieces of a text without comments come apart where they are joined. -/
theorem separate_pieces (hseparators : ∀ c ∈ separators, isSeparator c) (h : Uncommented text) :
    Separate separators (pieces separators (.source .code) none 0 [] text) := by
  induction hlength : text.length using Nat.strong_induction_on generalizing text with
  | _ length ih =>
    subst hlength
    rcases pieces_cases hseparators h with
      ⟨there, hreach, hpieces⟩ | ⟨front, c, back, previous, rfl, -, hfront, hpieces⟩
    · rw [hpieces]
      exact ⟨there, hreach⟩
    · rw [hpieces]
      have hshorter : back.length < (front ++ c :: back).length := by
        rw [List.length_append, List.length_cons]
        omega
      rw [← List.singleton_append] at h
      exact Separate.cons hfront (ih _ hshorter h.of_append.of_append rfl)

/-- Trimming and leaving out what is blank does not glue chunks together. -/
theorem Separate.trimmed {chunks : List (List Char)} (h : Separate separators chunks) :
    Separate separators ((chunks.map trim).filter (!·.isEmpty)) := by
  induction chunks with
  | nil => exact h
  | cons chunk more ih =>
    -- By induction nothing behind the chunk is glued together.
    have hmore : Separate separators ((more.map trim).filter (!·.isEmpty)) := by
      cases more with
      | nil => trivial
      | cons next more => exact ih h.2
    rw [List.map_cons, List.filter_cons]
    split
    · cases more with
      | nil =>
        obtain ⟨there, hreach⟩ := h
        obtain ⟨last, hlast, -⟩ := exists_reach_trim hreach
        exact ⟨last, hlast⟩
      | cons next more =>
        obtain ⟨⟨previous, hreach⟩, -⟩ := h
        obtain ⟨last, hlast, hkept⟩ := exists_reach_trim hreach
        obtain ⟨hcode, hdepth⟩ := hkept rfl
        have hlast' : last = ⟨.code, 0, last.previous⟩ := by
          rw [← hcode, show 0 = last.depth from hdepth.symm]
        rw [hlast'] at hlast
        exact Separate.cons hlast hmore
    · exact hmore

/-- Chunks that come apart are the pieces of the text in which they are joined. -/
theorem pieces_join {c : Char} (hc : isSeparator c) {chunks : List (List Char)}
    (hne : chunks ≠ []) (h : Separate [c] chunks) :
    pieces [c] (.source .code) none 0 [] (join [c] chunks) = chunks := by
  have hseparators : ∀ d ∈ [c], isSeparator d := List.forall_mem_singleton.mpr hc
  induction chunks with
  | nil => contradiction
  | cons chunk more ih =>
    cases more with
    | nil =>
      obtain ⟨there, hreach⟩ := h
      have hjoin : join [c] [chunk] = chunk := by simp [join]
      rw [hjoin, pieces_of_reach hseparators hreach]
    | cons next more =>
      obtain ⟨⟨previous, hreach⟩, hmore⟩ := h
      have hjoin : join [c] (chunk :: next :: more) = chunk ++ c :: join [c] (next :: more) := by
        simp [join, List.intercalate_cons_cons]
      rw [hjoin, pieces_reach_separator hseparators hreach (List.mem_singleton_self c),
        pieces_previous hseparators, ih (by simp) hmore]

/-- Chunks that come apart, are trimmed and are not blank are those of the text in which they are
joined. -/
theorem splitTopLevel_join {c : Char} (hc : isSeparator c) {chunks : List (List Char)}
    (h : Separate [c] chunks) (hchunks : ∀ chunk ∈ chunks, trim chunk = chunk ∧ chunk ≠ []) :
    splitTopLevel (join [c] chunks) [c] = chunks := by
  by_cases hne : chunks = []
  · subst hne
    rfl
  · have htrim : chunks.map trim = chunks :=
      (List.map_congr_left fun chunk hchunk => (hchunks chunk hchunk).1).trans (List.map_id' chunks)
    rw [splitTopLevel, pieces_join hc hne h, htrim, List.filter_eq_self]
    intro chunk hchunk
    simpa using (hchunks chunk hchunk).2

/-! ## What is kept -/

/-- The characters of a text that are neither blanks nor separators. -/
def ink (separators text : List Char) : List Char :=
  text.filter fun c => !isSpace c && !separators.contains c

theorem ink_append (text rest : List Char) :
    ink separators (text ++ rest) = ink separators text ++ ink separators rest :=
  List.filter_append ..

theorem ink_blanks {blanks : List Char} (hblanks : ∀ c ∈ blanks, isSpace c) :
    ink separators blanks = [] := by
  apply List.filter_eq_nil_iff.mpr
  intro c hc
  simp [hblanks c hc]

/-- Trimming takes away nothing but blanks. -/
theorem ink_trim (text : List Char) : ink separators (trim text) = ink separators text := by
  have hfront (c : Char) (hc : c ∈ text.takeWhile isSpace) : isSpace c :=
    List.mem_takeWhile_imp hc
  have hback (c : Char) (hc : c ∈ (trimStart text).rtakeWhile isSpace) : isSpace c :=
    List.mem_rtakeWhile_imp hc
  have hend : trim text ++ (trimStart text).rtakeWhile isSpace = trimStart text :=
    List.rdropWhile_append_rtakeWhile ..
  have hstart : text.takeWhile isSpace ++ trimStart text = text :=
    List.takeWhile_append_dropWhile
  calc
    ink separators (trim text)
      = ink separators (trim text ++ (trimStart text).rtakeWhile isSpace) := by
        rw [ink_append, ink_blanks hback, List.append_nil]
    _ = ink separators (text.takeWhile isSpace ++ trimStart text) := by
        rw [hend, ink_append, ink_blanks hfront, List.nil_append]
    _ = ink separators text := by rw [hstart]

/-- Trimming chunks and leaving out what is blank takes away nothing but blanks. -/
theorem ink_trimmed (chunks : List (List Char)) :
    ink separators ((chunks.map trim).filter (!·.isEmpty)).flatten =
      ink separators chunks.flatten := by
  induction chunks with
  | nil => rfl
  | cons chunk more ih =>
    rw [List.flatten_cons, ink_append, ← ih, List.map_cons, List.filter_cons, ← ink_trim chunk]
    split
    · rw [List.flatten_cons, ink_append]
    · rename_i hempty
      have hnil : trim chunk = [] := by simpa using hempty
      rw [hnil]
      rfl

/-- The pieces of a text without comments hold everything but separators. -/
theorem ink_pieces (hseparators : ∀ c ∈ separators, isSeparator c) (h : Uncommented text) :
    ink separators (pieces separators (.source .code) none 0 [] text).flatten =
      ink separators text := by
  induction hlength : text.length using Nat.strong_induction_on generalizing text with
  | _ length ih =>
    subst hlength
    rcases pieces_cases hseparators h with
      ⟨there, hreach, hpieces⟩ | ⟨front, c, back, previous, rfl, hc, hfront, hpieces⟩
    · rw [hpieces, List.flatten_singleton]
    · have hshorter : back.length < (front ++ c :: back).length := by
        rw [List.length_append, List.length_cons]
        omega
      rw [← List.singleton_append] at h
      have hseparator : ink separators [c] = [] := by simp [ink, hc]
      rw [hpieces, List.flatten_cons, ink_append, ih _ hshorter h.of_append.of_append rfl,
        ← List.singleton_append, ink_append, ink_append, hseparator, List.nil_append]

end

/-! ## Stability -/

/-- **Splitting.** A chunk is atomic: it is left as it is when it is split again, and a separator in
it stands in a literal or in a bracket. In a text without comments chunks that are joined by their
separator come apart where they are joined, and they hold everything but separators and the blanks
around them. -/
theorem splitTopLevel_stable (text : List Char) :
    (∀ separators : List Char, (∀ c ∈ separators, c = ',' ∨ c = ';' ∨ c = '\n') →
      ∀ chunk ∈ splitTopLevel text separators, splitTopLevel chunk separators = [chunk] ∧
        ∀ place c, chunk[place]? = some c → c ∈ separators → CodeAt chunk 0 place →
          Enclosed chunk place) ∧
    (Uncommented text → ∀ c : Char, c = ',' ∨ c = ';' ∨ c = '\n' →
      splitTopLevel (join [c] (splitTopLevel text [c])) [c] = splitTopLevel text [c] ∧
        ink [c] (splitTopLevel text [c]).flatten = ink [c] text) := by
  have hkind (c : Char) (hc : c = ',' ∨ c = ';' ∨ c = '\n') : isSeparator c := by
    rcases hc with rfl | rfl | rfl <;> rfl
  constructor
  · intro separators hset chunk hchunk
    have hseparators (c : Char) (hc : c ∈ separators) : isSeparator c := hkind c (hset c hc)
    obtain ⟨hmem, hne⟩ := List.mem_filter.mp hchunk
    obtain ⟨piece, hpiece, rfl⟩ := List.mem_map.mp hmem
    have hnothing : reach separators start ([] : List Char).reverse = some start := rfl
    obtain ⟨there, hreach⟩ :=
      reach_of_mem_pieces hseparators text hnothing (tracks_start text none) piece hpiece
    obtain ⟨last, hlast, -⟩ := exists_reach_trim hreach
    refine ⟨splitTopLevel_of_reach hseparators hlast (trim_trim piece) (by simpa using hne), ?_⟩
    intro place c hget hc hcode
    exact enclosed_of_reach hlast hget hc hcode
  · intro huncommented c hc
    have hseparators : ∀ d ∈ [c], isSeparator d := List.forall_mem_singleton.mpr (hkind c hc)
    constructor
    · apply splitTopLevel_join (hkind c hc) (separate_pieces hseparators huncommented).trimmed
      intro chunk hchunk
      obtain ⟨hmem, hne⟩ := List.mem_filter.mp hchunk
      obtain ⟨piece, -, rfl⟩ := List.mem_map.mp hmem
      exact ⟨trim_trim piece, by simpa using hne⟩
    · exact (ink_trimmed _).trans (ink_pieces hseparators huncommented)

/-- A text in which a comment holds a separator and a generic, and one with separators in a literal
and in a bracket and with a blank chunk. -/
theorem splitTopLevel_stable_generic :
    (let text := "m: Map<k, v/* >, */>, c // ,".toList
      let chunk := "m: Map<k, v>".toList
      chunk ∈ splitTopLevel text [','] ∧ splitTopLevel chunk [','] = [chunk] ∧
        Enclosed chunk 8) ∧
      let text := "a = ',' , f(b, c), ,d".toList
      Uncommented text ∧
        splitTopLevel (join [','] (splitTopLevel text [','])) [','] = splitTopLevel text [','] ∧
        ink [','] (splitTopLevel text [',']).flatten = ink [','] text := by
  constructor
  · intro text chunk
    have hseparators : ∀ c ∈ [','], c = ',' ∨ c = ';' ∨ c = '\n' := by simp
    have hchunk : chunk ∈ splitTopLevel text [','] := by decide
    obtain ⟨hsame, henclosed⟩ := (splitTopLevel_stable text).1 [','] hseparators chunk hchunk
    exact ⟨hchunk, hsame, henclosed 8 ',' (by decide) (by decide) (by decide)⟩
  · intro text
    have huncommented : Uncommented text := by decide
    exact ⟨huncommented, (splitTopLevel_stable text).2 huncommented ',' (.inl rfl)⟩

end CodeSurvey.Source
