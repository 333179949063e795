import CodeSurvey.Proofs.Modifiers
import CodeSurvey.Proofs.Phrases

/-!
# Lists of members

Reading the members of an interface is the inverse of printing them, whichever separators stand
between them. A printed member is made up of phrases: the word for constants, its name with its
marks, and its type. The pattern for members reads each of these parts to its end and nothing else.

- `MemberText`, `MemberText.Plain`: what is printed.
- `splitTopLevel_members`: a printed list comes apart into its members.
- `matchAll?_text`: what the pattern keeps of a member.
- `members_printed`: what is printed is read back, as far as the limit allows.
-/

namespace CodeSurvey.Source

open Text Pattern

/-! ## Printed members -/

/-- The separators of members. -/
def memberSeparators : List Char :=
  [';', ',', '\n']

/-- The parts of a member as it is printed. -/
structure MemberText where
  constant : Bool
  name : List Char
  marked : Bool
  type : List Char

namespace MemberText

/-- The word in front of a constant member, with a blank behind it. -/
def front (m : MemberText) : List Char :=
  if m.constant then "readonly".toList ++ [' '] else []

/-- The question mark of a member that may be left out. -/
def mark (m : MemberText) : List Char :=
  if m.marked then ['?'] else []

/-- The member as it is printed. -/
def text (m : MemberText) : List Char :=
  m.front ++ m.name ++ m.mark ++ ":".toList ++ [' '] ++ m.type

/-- The record of the member. -/
def property (m : MemberText) : Property where
  name := String.ofList m.name
  type := some (String.ofList m.type)
  isOptional := m.marked

/-- The name is an identifier, and in the type separators stand in brackets only. -/
structure Plain (m : MemberText) : Prop where
  name : Extract.isIdentifier m.name = true
  type : Phrase [';', ','] m.type

instance (m : MemberText) : Decidable m.Plain :=
  decidable_of_iff (Extract.isIdentifier m.name = true ∧ Phrase [';', ','] m.type)
    ⟨fun h => ⟨h.1, h.2⟩, fun h => ⟨h.name, h.type⟩⟩

variable {m : MemberText}

/-- The phrases of a printed member. -/
def parts (m : MemberText) : List (List Char) :=
  (if m.constant then ["readonly".toList] else []) ++ [m.name ++ m.mark ++ [':'], m.type]

/-- They stand one blank apart. -/
theorem text_eq_join (m : MemberText) : m.text = join [' '] m.parts := by
  obtain ⟨constant, name, marked, type⟩ := m
  cases constant <;> simp [text, front, parts, join_eq_flatMap]

/-- A phrase holds no line feed, so this one may be a separator too. -/
theorem Plain.type_phrase (h : m.Plain) : Phrase memberSeparators m.type :=
  { h.type with
    enclosed := fun place c hc hget => by
      have hmem : c ∈ [';', ','] ∨ c = '\n' := by simpa [memberSeparators, or_assoc] using hc
      rcases hmem with hmem | rfl
      · exact h.type.enclosed place c hmem hget
      · have hline : '\n' ∈ squeeze m.type := by
          rw [h.type.squeezed]
          exact List.mem_of_getElem? hget
        exact absurd (eq_blank_of_mem_squeeze hline (by decide)) (by decide) }

/-- Each of the parts is a phrase. -/
theorem Plain.parts_phrase (h : m.Plain) : ∀ part ∈ m.parts, Phrase memberSeparators part := by
  intro part hpart
  rw [parts, List.mem_append, List.mem_ite_nil_right, List.mem_singleton] at hpart
  rcases hpart with ⟨-, rfl⟩ | hpart
  · decide +kernel
  · rcases List.mem_pair.mp hpart with rfl | rfl
    · rw [List.append_assoc]
      refine phrase_of_name (isName_of_isIdentifier h.name) ?_ rfl
      rw [mark]
      cases m.marked <;> rfl
    · exact h.type_phrase

/-- A printed member is an item of its list. -/
theorem Plain.item_text (h : m.Plain) : Item memberSeparators m.text := by
  have hne : m.parts ≠ [] := List.append_ne_nil_of_right_ne_nil _ (List.cons_ne_nil _ _)
  rw [text_eq_join]
  exact Phrase.item_join (by decide) hne h.parts_phrase

/-! ## One member -/

/-- The spans that the pattern keeps of a member, the last one first. -/
def captures (m : MemberText) : List Capture :=
  let start := m.front.length
  let label := start + m.name.length + m.mark.length
  ⟨"type", label + 2, label + 2 + m.type.length⟩ ::
    ((if m.marked then [⟨"optional", start + m.name.length, label⟩] else []) ++
      [⟨"name", start, start + m.name.length⟩])

/-- No letter stands behind a name. -/
theorem head?_behind_name (m : MemberText) (rest : List Char) :
    (m.mark ++ (":".toList ++ rest)).head? = some (if m.marked then '?' else ':') := by
  rw [mark]
  cases m.marked <;> rfl

/-- The word in front of a constant member is read; the name of another member is not taken for it,
since no blank stands behind it. -/
theorem Plain.prefers_front (h : m.Plain) (rest : List Char) :
    (opt (lit "readonly" ++ spaces1)).Prefers m.front (m.name ++ (m.mark ++ (":".toList ++ rest))) 0
      [] := by
  have hname := isName_of_isIdentifier h.name
  have hinked := isSpace_of_isName hname
  rw [front]
  cases m.constant with
  | true =>
    have hstart : (m.name ++ (m.mark ++ (":".toList ++ rest))).head?.any isSpace = false := by
      obtain ⟨c, others, hcons⟩ := List.exists_cons_of_ne_nil (isName_iff.mp hname).1
      rw [hcons] at hinked ⊢
      exact hinked c List.mem_cons_self
    exact (takes_word "readonly" 0 hstart).prefers.opt
  -- If the name began with the whole word, what stands behind the name would follow it, and that is
  -- no blank.
  | false =>
    have hbehind := m.head?_behind_name rest
    have hmarks (marked : Bool) : (if marked then '?' else ':') ∉ "readonly".toList ∧
        isSpace (if marked then '?' else ':') = false := by
      cases marked <;> decide
    have hrefuses : (lit "readonly" ++ spaces1).Refuses
        (m.name ++ (m.mark ++ (":".toList ++ rest))) := by
      refine refuses_word_in hinked (fun c hc => ?_) fun _ => ?_
      · obtain rfl := Option.some.inj (hbehind.symm.trans hc)
        exact (hmarks m.marked).1
      · rw [hbehind]
        exact (hmarks m.marked).2
    exact (hrefuses.opt 0).prefers

/-- The name is kept. -/
theorem Plain.prefers_name (h : m.Plain) (others : List Pattern) (rest : List Char) (offset : Nat) :
    (capture "name" (alts (identifier :: others))).Prefers m.name (m.mark ++ (":".toList ++ rest))
      offset [⟨"name", offset, offset + m.name.length⟩] := by
  have hmarks (marked : Bool) : identifierRest.mem (if marked then '?' else ':') = false := by
    cases marked <;> decide +kernel
  have hread : identifier.Prefers m.name (m.mark ++ (":".toList ++ rest)) offset [] := by
    refine Extract.prefers_identifier offset h.name ?_
    rw [m.head?_behind_name]
    exact hmarks m.marked
  exact (hread.alts others).capture "name"

/-- The question mark is kept if there is one. -/
theorem prefers_mark (m : MemberText) (rest : List Char) (offset : Nat) :
    (opt (capture "optional" (lit "?"))).Prefers m.mark (":".toList ++ rest) offset
      (if m.marked then [⟨"optional", offset, offset + m.mark.length⟩] else []) := by
  rw [mark]
  cases m.marked with
  | true => exact ((takes_lit "?" _ offset).capture "optional").prefers.opt
  | false =>
    have hrefuses : (lit "?").Refuses (":".toList ++ rest) := refuses_lit '?' rfl (by simp)
    exact ((hrefuses.capture "optional").opt offset).prefers

/-- The pattern reads a printed member to its end. -/
theorem Plain.matchAll?_text (h : m.Plain) :
    memberPattern.matchAll? m.text = some ⟨m.text, 0, m.text.length, m.captures⟩ := by
  have hinked : (m.type ++ []).head?.any isSpace = false := by
    have hsqueezed := h.type.squeezed
    obtain ⟨c, others, hcons⟩ := List.exists_cons_of_ne_nil h.type.inked
    rw [hcons] at hsqueezed ⊢
    exact isSpace_head_of_squeezed hsqueezed
  have htype (offset : Nat) : (capture "type" (many1 anyChar)).Prefers m.type [] offset
      [⟨"type", offset, offset + m.type.length⟩] :=
    (prefers_many1 offset rfl (fun _ _ => rfl) h.type.inked).capture "type"
  have hblank (offset : Nat) : spaces.Prefers [' '] (m.type ++ []) offset [] :=
    prefers_many offset hinked (List.forall_mem_singleton.mpr rfl)
  have hcolon (offset : Nat) : (lit ":").Prefers ":".toList ([' '] ++ (m.type ++ [])) offset [] :=
    (takes_lit ":" _ offset).prefers
  have hnone (offset : Nat) : spaces.Takes [] (":".toList ++ ([' '] ++ (m.type ++ []))) offset [] :=
    takes_many_nil offset rfl
  have hfront := h.prefers_front ([' '] ++ (m.type ++ []))
  have hname := h.prefers_name [lit "'" ++ many1 (noneOf "'") ++ lit "'",
    lit "\"" ++ many1 (noneOf "\"") ++ lit "\""] ([' '] ++ (m.type ++ []))
  have hmark := m.prefers_mark ([' '] ++ (m.type ++ []))
  -- The parts of the pattern stand in the order of the text, and each stops where the next starts.
  have hread : memberPattern.Prefers m.text [] 0 m.captures := by
    have hlabel := ((hfront.seq (hname _)).seq (hmark _)).seq_nothing (hnone _)
    have hall := ((hlabel.seq (hcolon _)).seq (hblank _)).seq (htype _)
    simp only [List.length_append, List.nil_append, List.append_nil, Nat.zero_add] at hall
    exact hall
  exact matchAll?_prefers hread

/-- The name is what the pattern keeps under its key. -/
theorem group?_name (m : MemberText) (stop : Nat) :
    (⟨m.text, 0, stop, m.captures⟩ : Match).group? "name" = some m.name := by
  have htext : m.text = m.front ++ (m.name ++ (m.mark ++ ":".toList ++ [' '] ++ m.type)) := by
    simp [text]
  have hspan : (⟨m.text, 0, stop, m.captures⟩ : Match).span? "name" =
      some ⟨"name", m.front.length, m.front.length + m.name.length⟩ := by
    rw [Match.span?, captures]
    cases m.marked <;> rfl
  rw [Match.group?, hspan, Option.map_some, htext, between_append]

/-- So is the type. -/
theorem group?_type (m : MemberText) (stop : Nat) :
    (⟨m.text, 0, stop, m.captures⟩ : Match).group? "type" = some m.type := by
  let start := m.front ++ m.name ++ m.mark ++ ":".toList ++ [' ']
  have htext : m.text = start ++ (m.type ++ []) := by simp [text, start]
  have hstart : m.front.length + m.name.length + m.mark.length + 2 = start.length := by
    simp [start, Nat.add_assoc]
  show some (between m.text (m.front.length + m.name.length + m.mark.length + 2)
    (m.front.length + m.name.length + m.mark.length + 2 + m.type.length)) = some m.type
  rw [hstart, htext, between_append]

/-- A question mark is kept if there is one. -/
theorem has_optional (m : MemberText) (stop : Nat) :
    (⟨m.text, 0, stop, m.captures⟩ : Match).has "optional" = m.marked := by
  rw [Match.has, Match.span?, captures, mark]
  cases m.marked with
  | true => simp
  | false => simp

/-- **One member.** A printed member is read back. -/
theorem Plain.member?_text (h : m.Plain) : member? m.text = some m.property := by
  obtain ⟨-, hname⟩ := isName_iff.mp (isName_of_isIdentifier h.name)
  -- Neither kind of quote stands in an identifier.
  have hquotes : ∀ c ∈ m.name, (c == '\'' || c == '"') = false := by
    intro c hc
    have hquote : isQuote c = false := by
      have hplain := (hname c hc).1
      simp only [isPlain, Bool.and_eq_true, Bool.not_eq_true'] at hplain
      exact hplain.1.1.2
    exact (Bool.or_eq_false_iff.mp hquote).1
  have hstart : m.name.dropWhile (fun c => c == '\'' || c == '"') = m.name := by
    refine List.dropWhile_eq_self_iff.mpr fun hlength => ?_
    rw [hquotes _ (List.getElem_mem hlength)]
    exact Bool.false_ne_true
  rw [member?, h.matchAll?_text]
  simp only [Option.bind_eq_bind, Option.bind_some, group?_name, group?_type, has_optional, hstart,
    dropEndWhile_of_forall hquotes, h.type.squeezed]
  rfl

end MemberText

/-! ## Lists of members -/

open MemberText

/-- What is within a limit is kept whole. -/
theorem limited_eq_self {α : Type} {limit : Int} {xs : List α}
    (h : (xs.length : Int) ≤ limit ∨ limit = 0) : limited limit xs = xs := by
  rw [limited]
  split
  · rfl
  · next hlimit =>
    rw [beq_iff_eq] at hlimit
    have hlength : (xs.length : Int) ≤ limit := h.resolve_right hlimit
    exact List.take_of_length_le (by omega)

/-- Members as they are printed, each with the separator that stands before it; that of the first
one is left out. -/
def printedMembers : List (Char × MemberText) → List Char
  | [] => []
  | (_, first) :: others => first.text ++ others.flatMap fun other => other.1 :: other.2.text

/-- **Lists.** A printed list comes apart into its members. -/
theorem splitTopLevel_members {ms : List (Char × MemberText)}
    (hseparators : ∀ m ∈ ms, m.1 ∈ memberSeparators) (hplain : ∀ m ∈ ms, m.2.Plain) :
    splitTopLevel (printedMembers ms) memberSeparators = ms.map (·.2.text) := by
  cases ms with
  | nil => rfl
  | cons first others =>
    obtain ⟨hfirst, hothers⟩ := List.forall_mem_cons.mp hplain
    have hprinted : printedMembers (first :: others) =
        first.2.text ++ (others.map fun other => (other.1, other.2.text)).flatMap
          fun other => other.1 :: (List.replicate 0 ' ' ++ other.2) := by
      rw [printedMembers, List.flatMap_map]
      rfl
    have hitems : ∀ other ∈ others.map fun other => (other.1, other.2.text),
        other.1 ∈ memberSeparators ∧ Item memberSeparators other.2 := by
      intro other hother
      obtain ⟨m, hm, rfl⟩ := List.mem_map.mp hother
      exact ⟨hseparators m (List.mem_cons_of_mem _ hm), (hothers m hm).item_text⟩
    have hsplit := splitTopLevel_items (List.all_eq_true.mp rfl) (by decide) 0 hfirst.item_text hitems
    rw [hprinted, hsplit, List.map_map]
    rfl

/-- **Member lists.** Reading a list of members is the inverse of printing it, whichever separators
stand between them: without a limit all of them come back in their places, with one as many of the
first as it allows. -/
theorem members_printed (ms : List (Char × MemberText))
    (hseparators : ∀ m ∈ ms, m.1 ∈ memberSeparators) (hplain : ∀ m ∈ ms, m.2.Plain) :
    members (printedMembers ms) 0 = ms.map (·.2.property) ∧
      ∀ limit : Nat, 1 ≤ limit →
        members (printedMembers ms) limit = (ms.take limit).map (·.2.property) := by
  have hread : (splitTopLevel (printedMembers ms) [';', ',', '\n']).filterMap member? =
      ms.map (·.2.property) := by
    have hmember : ∀ m ∈ ms, member? m.2.text = some m.2.property :=
      fun m hm => (hplain m hm).member?_text
    calc
      (splitTopLevel (printedMembers ms) [';', ',', '\n']).filterMap member?
        = (ms.map (·.2.text)).filterMap member? :=
          congrArg _ (splitTopLevel_members hseparators hplain)
      _ = ms.filterMap fun m => some m.2.property := by
          rw [List.filterMap_map]
          exact List.filterMap_congr hmember
      _ = ms.map (·.2.property) := congrFun List.filterMap_eq_map' ms
  refine ⟨?_, fun limit hlimit => ?_⟩
  · rw [members, hread]
    rfl
  · have hpositive : ((limit : Int) == 0) = false := by
      rw [beq_eq_false_iff_ne]
      omega
    rw [members, hread, limited, hpositive, Int.toNat_natCast, Nat.max_eq_right hlimit,
      List.map_take]
    rfl

/-- Every separator, a constant member called `readonly`, a function type, and object types with
separators of their own. -/
theorem members_printed_mixed :
    let ms : List (Char × MemberText) := [
      (';', ⟨true, "readonly".toList, true, "{ a: A; b: B }".toList⟩),
      ('\n', ⟨false, "on".toList, false, "(at: Map<K, V>, x?: X) => void".toList⟩),
      (',', ⟨false, "$at_1".toList, true, "[A, { b: B, c: C }][]".toList⟩),
      (';', ⟨true, "last".toList, false, "A | B".toList⟩)]
    (∀ m ∈ ms, m.1 ∈ memberSeparators) ∧ (∀ m ∈ ms, m.2.Plain) ∧
      printedMembers ms = ("readonly readonly?: { a: A; b: B }\non: (at: Map<K, V>, x?: X) => void," ++
        "$at_1?: [A, { b: B, c: C }][];readonly last: A | B").toList ∧
      members (printedMembers ms) 0 = [
        { name := "readonly", type := some "{ a: A; b: B }", isOptional := true },
        { name := "on", type := some "(at: Map<K, V>, x?: X) => void" },
        { name := "$at_1", type := some "[A, { b: B, c: C }][]", isOptional := true },
        { name := "last", type := some "A | B" }] ∧
      members (printedMembers ms) 1 = [
        { name := "readonly", type := some "{ a: A; b: B }", isOptional := true }] := by
  intro ms
  have hseparators : ∀ m ∈ ms, m.1 ∈ memberSeparators := by decide
  have hplain : ∀ m ∈ ms, m.2.Plain := by decide +kernel
  obtain ⟨hall, hlimited⟩ := members_printed ms hseparators hplain
  refine ⟨hseparators, hplain, by decide +kernel, ?_, ?_⟩
  · exact hall.trans (by decide +kernel)
  · exact (hlimited 1 (by decide)).trans (by decide +kernel)

end CodeSurvey.Source
