import CodeSurvey.Source.Bracket
import Mathlib.Data.List.Basic

/-!
# What scans keep

The scans for closing brackets and for the ends of expressions keep two things of what they have
read: how they stand to literals, and how many brackets are open. A text that a scan passes over
matters to the rest of the scan by these two alone, and by its length.

- `passOver`: what is kept of a text; `Neutral`: a text of which nothing is kept.
- `closeAhead?_append`, `closeAhead?_of_stops`: the scan for a closing bracket.
- `expressionAhead_append`, `expressionAhead_of_stops`: the scan for the end of an expression.
- `closeAhead?_take`, `expressionAhead_take`: what ceilings do.
-/

namespace CodeSurvey.Source

open Text

/-! ## Kinds of brackets -/

theorem isQuote_of_bracket (c : Char) (h : isOpener c || isCloser c) : isQuote c = false := by
  simp only [isOpener, isCloser, Bool.or_eq_true, beq_iff_eq] at h
  rcases h with ((rfl | rfl) | rfl) | ((rfl | rfl) | rfl) <;> rfl

/-- The three kinds of brackets. -/
theorem closer?_cases {opener closer : Char} (h : closer? opener = some closer) :
    opener = '(' ∧ closer = ')' ∨ opener = '[' ∧ closer = ']' ∨ opener = '{' ∧ closer = '}' := by
  unfold closer? at h
  split at h <;> simp_all [eq_comm]

/-- Brackets of one kind are brackets. -/
theorem isBracket_of_closer? {opener closer : Char} (h : closer? opener = some closer) (c : Char)
    (hc : c == opener || c == closer) : isOpener c || isCloser c := by
  rw [Bool.or_eq_true, beq_iff_eq, beq_iff_eq] at hc
  rcases closer?_cases h with ⟨rfl, rfl⟩ | ⟨rfl, rfl⟩ | ⟨rfl, rfl⟩
  all_goals rcases hc with rfl | rfl <;> rfl

theorem isSpace_of_bracket (c : Char) (h : isOpener c || isCloser c) : isSpace c = false := by
  simp only [isOpener, isCloser, Bool.or_eq_true, beq_iff_eq] at h
  rcases h with ((rfl | rfl) | rfl) | ((rfl | rfl) | rfl) <;> decide

/-- A kind of brackets that closes with its own opener would not be told apart. -/
theorem closer_ne_opener {opener closer : Char} (h : closer? opener = some closer) :
    (closer == opener) = false := by
  rcases closer?_cases h with ⟨rfl, rfl⟩ | ⟨rfl, rfl⟩ | ⟨rfl, rfl⟩ <;> rfl

/-! ## Passing over a text -/

/-- What a scan keeps of a text: how it stands to literals and how many brackets are open. A
character is passed over unless it closes more than was opened or, outside brackets and literals,
`ends` says that the scan stops there. -/
def passChar (opens closes ends : Char → Bool) (c : Char) : Literal → Nat → Option (Literal × Nat)
  | .code, depth =>
    if opens c then some (.code, depth + 1)
    else if closes c then
      match depth with
      | 0 => none
      | outer + 1 => some (.code, outer)
    else if ends c && depth == 0 then none
    else some (Literal.code.step c, depth)
  | lit, depth => some (lit.step c, depth)

/-- Where a scan stands behind a text if it passes over all of it. -/
def passOver (opens closes ends : Char → Bool) (lit : Literal) (depth : Nat) (text : List Char) :
    Option (Literal × Nat) :=
  text.foldlM (fun here c => passChar opens closes ends c here.1 here.2) (lit, depth)

/-- No character but a closing bracket stops the scan. -/
def never (_ : Char) : Bool := false

/-- Whether a text has no effect on what a scan keeps: it opens and closes brackets in balance, and
it ends outside literals if it starts there. -/
def Neutral (opens closes : Char → Bool) (text : List Char) : Prop :=
  passOver opens closes never .code 0 text = some (.code, 0)

instance (opens closes : Char → Bool) (text : List Char) : Decidable (Neutral opens closes text) :=
  inferInstanceAs (Decidable (_ = _))

section

variable {opens closes ends : Char → Bool} {lit : Literal} {depth : Nat}

@[simp] theorem passOver_nil : passOver opens closes ends lit depth [] = some (lit, depth) := rfl

theorem passOver_cons (c : Char) (text : List Char) :
    passOver opens closes ends lit depth (c :: text) =
      (passChar opens closes ends c lit depth).bind fun here =>
        passOver opens closes ends here.1 here.2 text := by
  simp [passOver, Option.bind_eq_bind]

theorem passOver_append (text rest : List Char) :
    passOver opens closes ends lit depth (text ++ rest) =
      (passOver opens closes ends lit depth text).bind fun here =>
        passOver opens closes ends here.1 here.2 rest := by
  simp [passOver, Option.bind_eq_bind]

/-- A character that is passed over is passed over under more brackets too, and then nothing stops
the scan but brackets. -/
theorem passChar_deeper {c : Char} {lit' : Literal} {depth' : Nat} (more : Nat)
    (h : passChar opens closes never c lit depth = some (lit', depth')) :
    passChar opens closes ends c lit (depth + (more + 1)) = some (lit', depth' + (more + 1)) := by
  cases lit with
  | code =>
    cases ho : opens c with
    | true =>
      simp only [passChar, ho, if_true, Option.some.injEq, Prod.mk.injEq] at h ⊢
      exact ⟨h.1, by omega⟩
    | false =>
      cases hc : closes c with
      | true =>
        cases depth with
        | zero => simp [passChar, ho, hc] at h
        -- A bracket that closes inside of others still closes inside of more.
        | succ outer =>
          rw [Nat.add_right_comm outer 1 (more + 1)]
          simp_all [passChar]
      | false => simp_all [passChar, never]
  | inside q => simp_all [passChar]
  | escaped q => simp_all [passChar]

/-- What lies around a text does not change how a scan passes over it. -/
theorem passOver_deeper (ends : Char → Bool) (more : Nat) (text : List Char) :
    ∀ {lit : Literal} {depth : Nat} {lit' : Literal} {depth' : Nat},
      passOver opens closes never lit depth text = some (lit', depth') →
      passOver opens closes ends lit (depth + (more + 1)) text =
        some (lit', depth' + (more + 1)) := by
  induction text with
  | nil =>
    intro lit depth lit' depth' h
    rw [passOver_nil, Option.some.injEq, Prod.mk.injEq] at h
    rw [passOver_nil, h.1, h.2]
  | cons c text ih =>
    intro lit depth lit' depth' h
    rw [passOver_cons, Option.bind_eq_some_iff] at h
    obtain ⟨here, hchar, hrest⟩ := h
    rw [passOver_cons, passChar_deeper more hchar, Option.bind_some]
    exact ih hrest

/-- Brackets do not change how a scan stands to literals, as long as they are no quotes. -/
theorem passChar_literal {c : Char} {lit' : Literal} {depth' : Nat}
    (hquotes : ∀ c, opens c || closes c → isQuote c = false)
    (h : passChar opens closes ends c lit depth = some (lit', depth')) : lit.step c = lit' := by
  cases lit with
  | code =>
    have hcode (hc : opens c || closes c) : Literal.code.step c = .code := by
      simp [Literal.step, hquotes c hc]
    cases depth <;> grind [passChar]
  | inside q => simp_all [passChar]
  | escaped q => simp_all [passChar]

theorem passOver_literal (hquotes : ∀ c, opens c || closes c → isQuote c = false)
    (text : List Char) : ∀ {lit : Literal} {depth : Nat} {lit' : Literal} {depth' : Nat},
      passOver opens closes ends lit depth text = some (lit', depth') →
      text.foldl Literal.step lit = lit' := by
  induction text with
  | nil =>
    intro lit depth lit' depth' h
    rw [passOver_nil, Option.some.injEq, Prod.mk.injEq] at h
    exact h.1
  | cons c text ih =>
    intro lit depth lit' depth' h
    rw [passOver_cons, Option.bind_eq_some_iff] at h
    obtain ⟨here, hchar, hrest⟩ := h
    rw [List.foldl_cons, passChar_literal hquotes hchar]
    exact ih hrest

/-- A text without brackets and quotes is passed over, unless the scan ends in it. -/
theorem passOver_plain {text : List Char}
    (hbrackets : ∀ c ∈ text, opens c = false ∧ closes c = false)
    (hquotes : ∀ c ∈ text, isQuote c = false) (hends : ∀ c ∈ text, (ends c && depth == 0) = false) :
    passOver opens closes ends .code depth text = some (.code, depth) := by
  induction text with
  | nil => rfl
  | cons c text ih =>
    obtain ⟨⟨hopens, hcloses⟩, hbrackets⟩ := List.forall_mem_cons.mp hbrackets
    obtain ⟨hquote, hquotes⟩ := List.forall_mem_cons.mp hquotes
    obtain ⟨hend, hends⟩ := List.forall_mem_cons.mp hends
    have hchar : passChar opens closes ends c .code depth = some (.code, depth) := by
      simp [passChar, Literal.step, hopens, hcloses, hquote, hend]
    rw [passOver_cons, hchar, Option.bind_some]
    exact ih hbrackets hquotes hends

/-- Where a scan ends outside brackets matters only for the characters that it reads. -/
theorem passOver_congr {ends' : Char → Bool} (text : List Char)
    (h : ∀ c ∈ text, ends c = ends' c) : ∀ (lit : Literal) (depth : Nat),
      passOver opens closes ends lit depth text = passOver opens closes ends' lit depth text := by
  induction text with
  | nil => exact fun _ _ => rfl
  | cons c text ih =>
    intro lit depth
    obtain ⟨hc, htext⟩ := List.forall_mem_cons.mp h
    have hchar : passChar opens closes ends c lit depth =
        passChar opens closes ends' c lit depth := by
      cases lit <;> simp [passChar, hc]
    rw [passOver_cons, passOver_cons, hchar]
    congr 1
    funext here
    exact ih htext here.1 here.2

end

/-! ## Closing brackets -/

section

variable {opener closer : Char} {lit lit' : Literal} {depth depth' : Nat}

/-- What a scan for a closing bracket does with a character that it passes over. -/
theorem closeAhead?_cons {c : Char} (rest : List Char)
    (h : passChar (· == opener) (· == closer) never c lit depth = some (lit', depth')) :
    closeAhead? opener closer lit (depth + 1) (c :: rest) =
      (closeAhead? opener closer lit' (depth' + 1) rest).map (· + 1) := by
  cases lit with
  | code => cases depth <;> grind [passChar, closeAhead?, never]
  | inside q => simp_all [passChar, closeAhead?]
  | escaped q => simp_all [passChar, closeAhead?]

/-- The character at which such a scan stops closes the bracket. -/
theorem closeAhead?_cons_of_stops {c : Char} (rest : List Char)
    (h : passChar (· == opener) (· == closer) never c lit depth = none) :
    closeAhead? opener closer lit (depth + 1) (c :: rest) = some 0 := by
  cases lit with
  | code => cases depth <;> grind [passChar, closeAhead?, never]
  | inside q => simp_all [passChar]
  | escaped q => simp_all [passChar]

/-- A text that is passed over moves the closing bracket by its length. -/
theorem closeAhead?_append (text rest : List Char) : ∀ {lit : Literal} {depth : Nat},
    passOver (· == opener) (· == closer) never lit depth text = some (lit', depth') →
    closeAhead? opener closer lit (depth + 1) (text ++ rest) =
      (closeAhead? opener closer lit' (depth' + 1) rest).map (· + text.length) := by
  induction text with
  | nil =>
    intro lit depth h
    rw [passOver_nil, Option.some.injEq, Prod.mk.injEq] at h
    simp [h.1, h.2]
  | cons c text ih =>
    intro lit depth h
    rw [passOver_cons, Option.bind_eq_some_iff] at h
    obtain ⟨here, hchar, hrest⟩ := h
    rw [List.cons_append, closeAhead?_cons _ hchar, ih hrest, Option.map_map]
    rfl

/-- In a text that is not passed over the bracket closes, whatever follows. -/
theorem closeAhead?_of_stops (text : List Char) : ∀ {lit : Literal} {depth : Nat},
    passOver (· == opener) (· == closer) never lit depth text = none →
    ∃ n < text.length, ∀ rest,
      closeAhead? opener closer lit (depth + 1) (text ++ rest) = some n := by
  induction text with
  | nil =>
    intro lit depth h
    contradiction
  | cons c text ih =>
    intro lit depth h
    rw [passOver_cons] at h
    cases hchar : passChar (· == opener) (· == closer) never c lit depth with
    | none => exact ⟨0, Nat.succ_pos _, fun _ => closeAhead?_cons_of_stops _ hchar⟩
    | some here =>
      rw [hchar, Option.bind_some] at h
      obtain ⟨n, hn, hahead⟩ := ih h
      refine ⟨n + 1, Nat.succ_lt_succ hn, fun rest => ?_⟩
      rw [List.cons_append, closeAhead?_cons _ hchar, hahead, Option.map_some]

end

/-- A ceiling hides the closing bracket if that lies beyond, and does nothing else. -/
theorem closeAhead?_take (opener closer : Char) (text : List Char) :
    ∀ (lit : Literal) (depth k : Nat), closeAhead? opener closer lit depth (text.take k) =
      (closeAhead? opener closer lit depth text).filter (· < k) := by
  induction text with
  | nil =>
    intro lit depth k
    simp [closeAhead?]
  | cons c text ih =>
    intro lit depth k
    cases k with
    -- Nothing is seen, and nothing is found in front of the first character.
    | zero =>
      cases closeAhead? opener closer lit depth (c :: text) <;> simp [closeAhead?]
    | succ k =>
      have hmap (found : Option Nat) :
          (found.map (· + 1)).filter (· < k + 1) = (found.filter (· < k)).map (· + 1) := by
        cases found <;> simp [Option.filter]
      rw [List.take_succ_cons]
      cases lit with
      | code =>
        have hhere : (some 0).filter (fun n => decide (n < k + 1)) = some 0 := by
          simp [Option.filter]
        simp only [closeAhead?, ih, apply_ite (Option.filter _), hmap, hhere]
      | inside q => simp only [closeAhead?, ih, hmap]
      | escaped q => simp only [closeAhead?, ih, hmap]

/-! ## Ends of expressions -/

/-- Outside brackets an expression ends at a semicolon or a line feed. -/
def breaks (c : Char) : Bool :=
  c == ';' || c == '\n'

section

variable {lit lit' : Literal} {depth depth' : Nat}

/-- What a scan for the end of an expression does with a character that it passes over. -/
theorem expressionAhead_cons {c : Char} (rest : List Char)
    (h : passChar isOpener isCloser breaks c lit depth = some (lit', depth')) :
    expressionAhead lit depth (c :: rest) = expressionAhead lit' depth' rest + 1 := by
  cases lit with
  | code => cases depth <;> grind [passChar, expressionAhead, breaks]
  | inside q => simp_all [passChar, expressionAhead]
  | escaped q => simp_all [passChar, expressionAhead]

/-- The expression ends where such a scan stops. -/
theorem expressionAhead_cons_of_stops {c : Char} (rest : List Char)
    (h : passChar isOpener isCloser breaks c lit depth = none) :
    expressionAhead lit depth (c :: rest) = 0 := by
  cases lit with
  | code => cases depth <;> grind [passChar, expressionAhead, breaks]
  | inside q => simp_all [passChar]
  | escaped q => simp_all [passChar]

/-- A text that is passed over moves the end of an expression by its length. -/
theorem expressionAhead_append (text rest : List Char) : ∀ {lit : Literal} {depth : Nat},
    passOver isOpener isCloser breaks lit depth text = some (lit', depth') →
    expressionAhead lit depth (text ++ rest) = expressionAhead lit' depth' rest + text.length := by
  induction text with
  | nil =>
    intro lit depth h
    rw [passOver_nil, Option.some.injEq, Prod.mk.injEq] at h
    simp [h.1, h.2]
  | cons c text ih =>
    intro lit depth h
    rw [passOver_cons, Option.bind_eq_some_iff] at h
    obtain ⟨here, hchar, hrest⟩ := h
    rw [List.cons_append, expressionAhead_cons _ hchar, ih hrest]
    rfl

/-- In a text that is not passed over the expression ends, whatever follows. -/
theorem expressionAhead_of_stops (text : List Char) : ∀ {lit : Literal} {depth : Nat},
    passOver isOpener isCloser breaks lit depth text = none →
    ∃ n < text.length, ∀ rest, expressionAhead lit depth (text ++ rest) = n := by
  induction text with
  | nil =>
    intro lit depth h
    contradiction
  | cons c text ih =>
    intro lit depth h
    rw [passOver_cons] at h
    cases hchar : passChar isOpener isCloser breaks c lit depth with
    | none => exact ⟨0, Nat.succ_pos _, fun _ => expressionAhead_cons_of_stops _ hchar⟩
    | some here =>
      rw [hchar, Option.bind_some] at h
      obtain ⟨n, hn, hahead⟩ := ih h
      refine ⟨n + 1, Nat.succ_lt_succ hn, fun rest => ?_⟩
      rw [List.cons_append, expressionAhead_cons _ hchar, hahead]

end

/-- Whether the next character of a literal is taken whatever it is. -/
def Literal.isEscaped : Literal → Bool
  | escaped _ => true
  | _ => false

/-- A ceiling ends an expression that goes on beyond, one character late where the last one that it
lets the scan see is a backslash in a literal. -/
theorem expressionAhead_take (text : List Char) : ∀ (lit : Literal) (depth k : Nat),
    k ≤ text.length → expressionAhead lit depth (text.take k) =
      if expressionAhead lit depth text < k then expressionAhead lit depth text
      else k + if ((text.take k).foldl Literal.step lit).isEscaped then 1 else 0 := by
  have hnil (lit : Literal) (depth : Nat) :
      expressionAhead lit depth [] = if lit.isEscaped then 1 else 0 := by
    cases lit <;> rfl
  induction text with
  | nil =>
    intro lit depth k hk
    obtain rfl : k = 0 := Nat.le_zero.mp hk
    simp [hnil]
  | cons c text ih =>
    intro lit depth k hk
    cases k with
    | zero => rw [List.take_zero, hnil, if_neg (Nat.not_lt_zero _), Nat.zero_add, List.foldl_nil]
    | succ k =>
      rw [List.take_succ_cons, List.foldl_cons]
      cases hchar : passChar isOpener isCloser breaks c lit depth with
      | none =>
        rw [expressionAhead_cons_of_stops _ hchar, expressionAhead_cons_of_stops _ hchar,
          if_pos (Nat.succ_pos k)]
      | some here =>
        rw [expressionAhead_cons _ hchar, expressionAhead_cons _ hchar,
          passChar_literal isQuote_of_bracket hchar, ih _ _ k (Nat.succ_le_succ_iff.mp hk)]
        by_cases hahead : expressionAhead here.1 here.2 text < k
        · rw [if_pos hahead, if_pos (Nat.succ_lt_succ hahead)]
        · -- The expression goes on beyond the ceiling, so it does in the rest too.
          rw [if_neg hahead, if_neg (mt Nat.lt_of_succ_lt_succ hahead)]
          omega

end CodeSurvey.Source
