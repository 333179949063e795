import CodeSurvey.Source.Bracket
import Mathlib.Algebra.Order.Interval.Finset.SuccPred
import Mathlib.Data.Nat.SuccPred
import Mathlib.Order.Interval.Finset.Nat

/-!
# Places in code

Scans tell string literals from code by reading one character after another. What they come to can
be said without a scan: a text that is read from code ends in code if it is made up of whole
literals and of characters that are no quotes.

- `LiteralBody`, `CodeText`: what stands between the quotes of a literal; texts that end in code.
- `codeText_iff`: a scan is in code behind exactly these texts.
- `CodeAt`: the places of a text that stand outside literals.
- `codeCount`: how many such places of a sort there are between two places.
-/

namespace CodeSurvey.Source

open Text

/-! ## Literals -/

/-- What stands between two quotes of a kind: a backslash takes the next character with it,
whatever that is, and otherwise no quote of that kind occurs. -/
inductive LiteralBody (quote : Char) : List Char → Prop
  | empty : LiteralBody quote []
  | plain {c : Char} {rest : List Char} (hescape : c ≠ '\\') (hquote : c ≠ quote)
      (hrest : LiteralBody quote rest) : LiteralBody quote (c :: rest)
  | escape (c : Char) {rest : List Char} (hrest : LiteralBody quote rest) :
      LiteralBody quote ('\\' :: c :: rest)

/-- A text of whole literals and of characters that are no quotes. Outside literals a backslash is a
character like others. -/
inductive CodeText : List Char → Prop
  | empty : CodeText []
  | plain {c : Char} {rest : List Char} (hquote : isQuote c = false) (hrest : CodeText rest) :
      CodeText (c :: rest)
  | literal {quote : Char} {body rest : List Char} (hquote : isQuote quote = true)
      (hbody : LiteralBody quote body) (hrest : CodeText rest) :
      CodeText (quote :: (body ++ quote :: rest))

theorem ne_escape_of_isQuote {c : Char} (h : isQuote c) : c ≠ '\\' := by
  rintro rfl
  contradiction

/-- A scan that is in a literal is still in it behind what may stand between its quotes. -/
theorem LiteralBody.foldl {quote : Char} {body : List Char} (h : LiteralBody quote body) :
    body.foldl Literal.step (.inside quote) = .inside quote := by
  induction h with
  | empty => rfl
  | plain hescape hquote _ ih => simpa [Literal.step, hescape, hquote] using ih
  | escape c _ ih => simpa [Literal.step] using ih

theorem CodeText.foldl {text : List Char} (h : CodeText text) :
    text.foldl Literal.step .code = .code := by
  induction h with
  | empty => rfl
  | plain hquote _ ih => simpa [Literal.step, hquote] using ih
  | @literal quote body rest hquote hbody _ ih =>
    rw [List.foldl_cons, List.foldl_append, List.foldl_cons]
    simp only [Literal.step, hquote, if_true, hbody.foldl, beq_iff_eq,
      ne_escape_of_isQuote hquote, if_false]
    exact ih

/-- What a text has to be like if a scan that starts with it in code or in a literal is in code
behind it. -/
def LeadsToCode : Literal → List Char → Prop
  | .code, text => CodeText text
  | .inside quote, text =>
    ∃ body rest, text = body ++ quote :: rest ∧ LiteralBody quote body ∧ CodeText rest
  | .escaped quote, text =>
    ∃ c body rest, text = c :: (body ++ quote :: rest) ∧ LiteralBody quote body ∧ CodeText rest

/-- A scan that ends in code has read whole literals, the one in which it may have started apart. -/
theorem leadsToCode_of_foldl (text : List Char) :
    ∀ {lit : Literal}, text.foldl Literal.step lit = .code → LeadsToCode lit text := by
  -- The induction is on the text, for all states at once: where a literal opens, what follows is a
  -- text that starts inside of it.
  induction text with
  | nil =>
    intro lit h
    obtain rfl : lit = .code := h
    exact .empty
  | cons c text ih =>
    intro lit h
    rw [List.foldl_cons] at h
    cases lit with
    | code =>
      cases hquote : isQuote c with
      | false =>
        rw [Literal.step, hquote] at h
        exact .plain hquote (ih h)
      | true =>
        rw [Literal.step, hquote] at h
        obtain ⟨body, rest, rfl, hbody, hrest⟩ := ih h
        exact .literal hquote hbody hrest
    | inside quote =>
      by_cases hescape : c = '\\'
      · subst hescape
        obtain ⟨d, body, rest, rfl, hbody, hrest⟩ := ih h
        exact ⟨'\\' :: d :: body, rest, rfl, hbody.escape d, hrest⟩
      · by_cases hclose : c = quote
        · subst hclose
          simp only [Literal.step, beq_iff_eq, hescape, if_false, if_true] at h
          exact ⟨[], text, rfl, .empty, ih h⟩
        · simp only [Literal.step, beq_iff_eq, hescape, hclose, if_false] at h
          obtain ⟨body, rest, rfl, hbody, hrest⟩ := ih h
          exact ⟨c :: body, rest, rfl, hbody.plain hescape hclose, hrest⟩
    | escaped quote =>
      obtain ⟨body, rest, rfl, hbody, hrest⟩ := ih h
      exact ⟨c, body, rest, rfl, hbody, hrest⟩

/-- **Literals.** A scan that starts in code is in code behind exactly the texts that are made up of
whole literals and of characters that are no quotes. -/
theorem codeText_iff {text : List Char} :
    CodeText text ↔ text.foldl Literal.step .code = .code :=
  ⟨CodeText.foldl, leadsToCode_of_foldl text⟩

instance (text : List Char) : Decidable (CodeText text) :=
  decidable_of_iff _ codeText_iff.symm

/-! ## Places -/

/-- Whether a place stands outside literals, when the text is read from `start` on. -/
def CodeAt (text : List Char) (start place : Nat) : Prop :=
  CodeText (between text start place)

instance (text : List Char) (start place : Nat) : Decidable (CodeAt text start place) :=
  inferInstanceAs (Decidable (CodeText _))

/-- Whether a character of a sort stands at a place. -/
def standsAt (text : List Char) (sort : Char → Bool) (place : Nat) : Bool :=
  text[place]?.any sort

theorem standsAt_of_getElem? {text : List Char} {place : Nat} {c : Char}
    (h : text[place]? = some c) (sort : Char → Bool) : standsAt text sort place = sort c := by
  rw [standsAt, h, Option.any_some]

/-- How many places of a sort stand outside literals between two places, the second one not
included, when the text is read from the first one on. -/
def codeCount (text : List Char) (start stop : Nat) (sort : Nat → Bool) : Nat :=
  ((Finset.Ico start stop).filter fun place => CodeAt text start place ∧ sort place = true).card

section

variable {text : List Char} {start middle place stop : Nat} {sort : Nat → Bool}

/-- A part that goes one character further. -/
theorem between_succ (hstart : start ≤ place) (hplace : place < text.length) :
    between text start (place + 1) = between text start place ++ [text[place]] := by
  have hone : between text place (place + 1) = [text[place]] := by
    rw [between, List.drop_eq_getElem_cons hplace, Nat.add_sub_cancel_left, List.take_succ_cons,
      List.take_zero]
  rw [between_split text hstart (Nat.le_succ place), hone]

theorem codeAt_start : CodeAt text start start := by
  rw [CodeAt, between, Nat.sub_self, List.take_zero]
  exact .empty

/-- From which place in code a text is read makes no difference to the places behind it. -/
theorem codeAt_from (hstart : start ≤ middle) (hmiddle : middle ≤ place)
    (hcode : CodeAt text start middle) : CodeAt text start place ↔ CodeAt text middle place := by
  rw [CodeAt, codeText_iff] at hcode
  rw [CodeAt, CodeAt, codeText_iff, codeText_iff, between_split text hstart hmiddle,
    List.foldl_append, hcode]

theorem codeCount_self : codeCount text start start sort = 0 := by
  simp [codeCount]

/-- One more place counts if it is of the sort and outside literals. -/
theorem codeCount_succ (hstart : start ≤ place) :
    codeCount text start (place + 1) sort =
      codeCount text start place sort +
        if CodeAt text start place ∧ sort place = true then 1 else 0 := by
  rw [codeCount, ← Finset.insert_Ico_right_eq_Ico_add_one hstart, Finset.filter_insert]
  split
  · rw [Finset.card_insert_of_notMem (by simp)]
    rfl
  · rfl

/-- A count is that up to a place in code and that from there on. -/
theorem codeCount_from (hstart : start ≤ middle) (hmiddle : middle ≤ stop)
    (hcode : CodeAt text start middle) :
    codeCount text start stop sort =
      codeCount text start middle sort + codeCount text middle stop sort := by
  induction stop, hmiddle using Nat.le_induction with
  | base => rw [codeCount_self, Nat.add_zero]
  | succ stop hstop ih =>
    simp only [codeCount_succ (hstart.trans hstop), codeCount_succ hstop, ih,
      codeAt_from hstart hstop hcode, Nat.add_assoc]

end

end CodeSurvey.Source
