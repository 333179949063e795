import CodeSurvey.Proofs.Scans
import CodeSurvey.Proofs.Squeezing
import CodeSurvey.Source.TypeText

/-!
# Balanced texts

A text is balanced in some brackets if as many close as open, and nowhere more have closed than
opened. Scans that count brackets pass over such a text without noticing its end, so they stop right
behind it.

- `Balanced`: the property, stated on counts.
- `Settles`: the same, read along the text with the depth reached so far.
- `passOver_settles`: scans pass over such a text.
- `closing?_of_neutral`, `closing?_balanced`: the bracket that closes a balanced text.
- `returnType_balanced`: the return type before a body.
- `block_headed`, `block_balanced`: the block around a balanced body.
-/

namespace CodeSurvey.Source

open Text

/-! ## Balance -/

/-- As many brackets close as open, and no start of the text closes more than it opens. -/
structure Balanced (opens closes : Char → Bool) (text : List Char) : Prop where
  total : text.countP closes = text.countP opens
  starts : ∀ n, (text.take n).countP closes ≤ (text.take n).countP opens

/-- A text without the brackets is balanced in them. -/
theorem balanced_of_none {opens closes : Char → Bool} {text : List Char}
    (h : ∀ c ∈ text, opens c = false ∧ closes c = false) : Balanced opens closes text := by
  have hnone {part : List Char} (hpart : part <+: text) :
      part.countP closes = 0 ∧ part.countP opens = 0 := by
    simp only [List.countP_eq_zero, Bool.not_eq_true]
    exact ⟨fun c hc => (h c (hpart.subset hc)).2, fun c hc => (h c (hpart.subset hc)).1⟩
  obtain ⟨hcloses, hopens⟩ := hnone (List.prefix_refl text)
  refine ⟨hcloses.trans hopens.symm, fun n => ?_⟩
  rw [(hnone (List.take_prefix n text)).1]
  exact Nat.zero_le _

/-- Balanced texts one behind the other are balanced. -/
theorem Balanced.append {opens closes : Char → Bool} {first second : List Char}
    (hfirst : Balanced opens closes first) (hsecond : Balanced opens closes second) :
    Balanced opens closes (first ++ second) where
  total := by rw [List.countP_append, List.countP_append, hfirst.total, hsecond.total]
  starts n := by
    rw [List.take_append, List.countP_append, List.countP_append]
    exact Nat.add_le_add (hfirst.starts n) (hsecond.starts _)

/-- So is a balanced text between a bracket that opens and one that closes. -/
theorem Balanced.enclosed {opens closes : Char → Bool} {text : List Char} {opener closer : Char}
    (h : Balanced opens closes text) (hopener : opens opener = true ∧ closes opener = false)
    (hcloser : opens closer = false ∧ closes closer = true) :
    Balanced opens closes (opener :: (text ++ [closer])) where
  total := by
    simp [hopener, hcloser, h.total]
  starts n := by
    cases n with
    | zero => exact Nat.le_refl _
    | succ n =>
      have hclosed : ([closer].take (n - text.length)).countP closes ≤ 1 :=
        List.countP_le_length.trans (List.length_take_le' _ _)
      have hstart := h.starts n
      simp only [List.take_succ_cons, List.take_append, List.countP_cons, List.countP_append, hopener]
      simp only [if_true, Bool.false_eq_true, if_false]
      omega

/-- It is enough to look at the starts that are shorter than the text. -/
theorem balanced_iff {opens closes : Char → Bool} {text : List Char} :
    Balanced opens closes text ↔ text.countP closes = text.countP opens ∧
      ∀ n < text.length, (text.take n).countP closes ≤ (text.take n).countP opens := by
  constructor
  · rintro ⟨htotal, hstarts⟩
    exact ⟨htotal, fun n _ => hstarts n⟩
  · rintro ⟨htotal, hstarts⟩
    refine ⟨htotal, fun n => ?_⟩
    by_cases hn : n < text.length
    · exact hstarts n hn
    · have hall : text.take n = text := List.take_of_length_le (by omega)
      exact Nat.le_of_eq (by rw [hall, htotal])

instance (opens closes : Char → Bool) (text : List Char) :
    Decidable (Balanced opens closes text) :=
  decidable_of_iff _ balanced_iff.symm

/-- Read from a depth, the text never goes below zero and ends there. -/
def Settles (opens closes : Char → Bool) : (depth : Nat) → List Char → Prop
  | depth, [] => depth = 0
  | depth, c :: rest =>
    if opens c then Settles opens closes (depth + 1) rest
    else if closes c then ∃ outer, depth = outer + 1 ∧ Settles opens closes outer rest
    else Settles opens closes depth rest

/-- What the first character does to the depth. -/
theorem settles_cons {opens closes : Char → Bool} {depth : Nat} {c : Char} {rest : List Char} :
    Settles opens closes depth (c :: rest) ↔
      (opens c = true ∧ Settles opens closes (depth + 1) rest) ∨
      (opens c = false ∧ closes c = true ∧
        ∃ outer, depth = outer + 1 ∧ Settles opens closes outer rest) ∨
      (opens c = false ∧ closes c = false ∧ Settles opens closes depth rest) := by
  rw [Settles]
  cases opens c <;> cases closes c <;> simp

/-- Counts tell whether a text settles. The induction keeps, for every start of the text, that the
depth and what has opened make up for what has closed. -/
theorem settles_of_counts {opens closes : Char → Bool}
    (hapart : ∀ c, opens c = true → closes c = false) (text : List Char) :
    ∀ depth : Nat, text.countP closes = depth + text.countP opens →
      (∀ n, (text.take n).countP closes ≤ depth + (text.take n).countP opens) →
      Settles opens closes depth text := by
  induction text with
  | nil =>
    intro depth htotal _
    have hdepth : depth = 0 := by simpa using htotal.symm
    exact hdepth
  | cons c rest ih =>
    intro depth htotal hstarts
    have hrest (n : Nat) := hstarts (n + 1)
    simp only [List.take_succ_cons] at hrest
    cases ho : opens c with
    | true =>
      have hc := hapart c ho
      simp only [List.countP_cons, ho, hc, if_true, Bool.false_eq_true, if_false] at htotal hrest
      refine settles_cons.mpr (.inl ⟨ho, ih (depth + 1) (by omega) fun n => ?_⟩)
      have hn := hrest n
      omega
    | false =>
      cases hc : closes c with
      | true =>
        simp only [List.countP_cons, ho, hc, if_true, Bool.false_eq_true, if_false] at htotal hrest
        -- The closer itself is a start of the text, so something was open before it.
        have hpositive := hrest 0
        simp only [List.take_zero, List.countP_nil] at hpositive
        refine settles_cons.mpr (.inr (.inl ⟨ho, hc, depth - 1, by omega,
          ih (depth - 1) (by omega) fun n => ?_⟩))
        have hn := hrest n
        omega
      | false =>
        simp only [List.countP_cons, ho, hc, Bool.false_eq_true, if_false] at htotal hrest
        refine settles_cons.mpr (.inr (.inr ⟨ho, hc, ih depth (by omega) fun n => ?_⟩))
        have hn := hrest n
        omega

/-- A balanced text settles. -/
theorem Balanced.settles {opens closes : Char → Bool} {text : List Char}
    (h : Balanced opens closes text) (hapart : ∀ c, opens c = true → closes c = false) :
    Settles opens closes 0 text :=
  settles_of_counts hapart text 0 (by simpa using h.total) fun n => by simpa using h.starts n

/-- A scan passes over a text that settles if brackets enclose every place where it might end. The
induction is on the text, with the depth at which the scan stands. -/
theorem passOver_settles {opens closes ends : Char → Bool}
    (hapart : ∀ c, opens c = true → closes c = false) {text : List Char} :
    ∀ depth : Nat, (∀ c ∈ text, isQuote c = false) → Settles opens closes depth text →
      (∀ (place : Nat) (h : place < text.length), ends text[place] = true →
        (text.take place).countP closes < depth + (text.take place).countP opens) →
      passOver opens closes ends .code depth text = some (.code, 0) := by
  induction text with
  | nil =>
    intro depth _ hsettles _
    obtain rfl : depth = 0 := hsettles
    rfl
  | cons c text ih =>
    intro depth hquotes hsettles hencloses
    obtain ⟨hquote, hquotes⟩ := List.forall_mem_cons.mp hquotes
    have hstep : Literal.code.step c = .code := by simp [Literal.step, hquote]
    have hhere : ends c = true → 0 < depth := by
      intro hends
      have h := hencloses 0 (Nat.succ_pos _) hends
      simpa using h
    have hbehind (place : Nat) (h : place < text.length) (hends : ends text[place] = true) :=
      hencloses (place + 1) (Nat.succ_lt_succ h) hends
    simp only [List.take_succ_cons, List.countP_cons] at hbehind
    -- What is asked of the places behind the character is asked at the depth to which it leads.
    have hnext {depth' : Nat} (h : Settles opens closes depth' text)
        (hdepth : depth' + (if closes c then 1 else 0) = depth + if opens c then 1 else 0) :
        passOver opens closes ends .code depth' text = some (.code, 0) := by
      refine ih depth' hquotes h fun place hplace hends => ?_
      have hcount := hbehind place hplace hends
      omega
    rw [passOver_cons]
    rcases settles_cons.mp hsettles with ⟨ho, h⟩ | ⟨ho, hc, outer, rfl, h⟩ | ⟨ho, hc, h⟩
    · have hchar : passChar opens closes ends c .code depth = some (.code, depth + 1) := by
        simp [passChar, ho]
      rw [hchar, Option.bind_some]
      exact hnext h (by simp [ho, hapart c ho])
    · have hchar : passChar opens closes ends c .code (outer + 1) = some (.code, outer) := by
        simp [passChar, ho, hc]
      rw [hchar, Option.bind_some]
      exact hnext h (by simp [ho, hc])
    · have hgoes : (ends c && depth == 0) = false := by
        rw [Bool.and_eq_false_imp, beq_eq_false_iff_ne]
        exact fun hends => Nat.ne_of_gt (hhere hends)
      have hchar : passChar opens closes ends c .code depth = some (.code, depth) := by
        simp [passChar, ho, hc, hgoes, hstep]
      rw [hchar, Option.bind_some]
      exact hnext h (by simp [ho, hc])

/-- A balanced text without quotes has no effect on a scan. -/
theorem Balanced.neutral {opens closes : Char → Bool} {text : List Char}
    (h : Balanced opens closes text) (hapart : ∀ c, opens c = true → closes c = false)
    (hquotes : ∀ c ∈ text, isQuote c = false) : Neutral opens closes text := by
  refine passOver_settles hapart 0 hquotes (h.settles hapart) fun place _ hends => ?_
  contradiction

/-! ## Parentheses -/

/-- No bracket both opens and closes. -/
theorem isCloser_of_isOpener {c : Char} (h : isOpener c = true) : isCloser c = false := by
  simp only [isOpener, Bool.or_eq_true, beq_iff_eq] at h
  rcases h with (rfl | rfl) | rfl <;> rfl

/-- The bracket behind a text that has no effect on a scan closes the one before it, if the ceiling
lets the scan see it; otherwise none does. -/
theorem closing?_of_neutral {opener closer : Char} (hkind : closer? opener = some closer)
    (before : List Char) {text : List Char} (rest : List Char) (ceiling : Int)
    (h : Neutral (· == opener) (· == closer) text) :
    closing? (before ++ (opener :: text ++ [closer] ++ rest)) before.length ceiling =
      if (text.length : Int) + 2 ≤ ceiling then some (before.length + 1 + text.length)
      else none := by
  have hopener : (before ++ (opener :: text ++ [closer] ++ rest))[before.length]? = some opener := by
    simp
  -- The scan reads the opener first, which brings the depth to one.
  have hahead : closeAhead? opener closer .code 0 (opener :: text ++ [closer] ++ rest) =
      some (text.length + 1) := by
    have hinner : closeAhead? opener closer .code 1 (text ++ closer :: rest) = some text.length := by
      have hcloser : closeAhead? opener closer .code 1 (closer :: rest) = some 0 := by
        rw [closeAhead?, closer_ne_opener hkind, if_neg Bool.false_ne_true, beq_self_eq_true]
        rfl
      exact (closeAhead?_append text _ h).trans (by rw [hcloser, Option.map_some, Nat.zero_add])
    rw [List.append_assoc, List.singleton_append, List.cons_append, closeAhead?,
      if_pos (beq_self_eq_true _), hinner]
    rfl
  rw [closing?, hopener, window, List.drop_left]
  simp only [Option.bind_eq_bind, Option.bind_some, hkind]
  rw [closeAhead?_take, hahead, Option.filter_some]
  by_cases hceiling : (text.length : Int) + 2 ≤ ceiling
  · rw [if_pos hceiling, if_pos (decide_eq_true (by omega)), Option.map_some]
    exact congrArg some (by omega)
  · rw [if_neg hceiling, if_neg (by rw [decide_eq_true_iff]; omega), Option.map_none]

/-- The bracket behind a balanced text closes the one before it, if the ceiling lets the scan see
it. -/
theorem closing?_of_balanced {opener closer : Char} (hkind : closer? opener = some closer)
    (before : List Char) {text : List Char} (rest : List Char) (ceiling : Int)
    (hbalanced : Balanced (· == opener) (· == closer) text)
    (hquotes : ∀ c ∈ text, isQuote c = false) :
    closing? (before ++ (opener :: text ++ [closer] ++ rest)) before.length ceiling =
      if (text.length : Int) + 2 ≤ ceiling then some (before.length + 1 + text.length)
      else none := by
  have hapart (c : Char) (hc : (c == opener) = true) : (c == closer) = false := by
    rw [beq_iff_eq.mp hc, beq_eq_false_iff_ne]
    exact Ne.symm (beq_eq_false_iff_ne.mp (closer_ne_opener hkind))
  exact closing?_of_neutral hkind before rest ceiling (hbalanced.neutral hapart hquotes)

/-- **Brackets.** The bracket behind a balanced text closes the one before it. -/
theorem closing?_balanced {opener closer : Char} (hkind : closer? opener = some closer)
    (before : List Char) {text : List Char} (rest : List Char) {ceiling : Int}
    (hbalanced : Balanced (· == opener) (· == closer) text) (hquotes : ∀ c ∈ text, isQuote c = false)
    (hceiling : (text.length : Int) + 2 ≤ ceiling) :
    closing? (before ++ (opener :: text ++ [closer] ++ rest)) before.length ceiling =
      some (before.length + 1 + text.length) := by
  rw [closing?_of_balanced hkind before rest ceiling hbalanced hquotes, if_pos hceiling]

/-! ## Return types -/

/-- The brackets that count in types. -/
def isTypeCloser (c : Char) : Bool :=
  isCloser c || c == '>'

/-- What a return type on one line may not hold. -/
def endsType (c : Char) : Bool :=
  c == '{' || c == '}' || c == ';' || c == '='

theorem isTypeCloser_of_isTypeOpener {c : Char} (h : isTypeOpener c = true) :
    isTypeCloser c = false := by
  simp only [isTypeOpener, isOpener, Bool.or_eq_true, beq_iff_eq] at h
  rcases h with ((rfl | rfl) | rfl) | rfl <;> rfl

section

variable {rest : List Char} {budget : Nat} {depth : Int} {inked : Bool} {previous c : Char}

/-- Outside brackets a reading stops before a brace once something has been read, before a semicolon
and before an arrow. -/
theorem returnTypeLength_stops (hstops : c = '{' ∧ inked = true ∨ c = ';' ∨
      c = '=' ∧ rest.head? = some '>') :
    returnTypeLength budget 0 inked previous (c :: rest) = 0 := by
  cases budget with
  | zero => rfl
  | succ budget =>
    rw [returnTypeLength, if_pos]
    simp only [Bool.and_eq_true, Bool.or_eq_true, beq_iff_eq]
    tauto

/-- Before anything else it goes on, unless a bracket closes that did not open in the type. -/
theorem returnTypeLength_next
    (hgoes : depth = 0 → ¬ (c = '{' ∧ inked = true ∨ c = ';' ∨ c = '=' ∧ rest.head? = some '>'))
    (hdepth : 0 ≤ typeDepth (some previous) depth c) :
    returnTypeLength (budget + 1) depth inked previous (c :: rest) =
      returnTypeLength budget (typeDepth (some previous) depth c) (inked || !isSpace c) c rest +
        1 := by
  have hends : (depth == 0 && ((c == '{' && inked) || c == ';' ||
      (c == '=' && rest.head? == some '>'))) = false := by
    rw [Bool.eq_false_iff]
    intro hends
    simp only [Bool.and_eq_true, Bool.or_eq_true, beq_iff_eq] at hends
    exact hgoes hends.1 (by tauto)
  rw [returnTypeLength]
  simp only [hends, Bool.false_eq_true, if_false]
  rw [if_neg (by omega)]

/-- A blank is passed over. -/
theorem returnTypeLength_blank (hdepth : 0 ≤ depth) :
    returnTypeLength (budget + 1) depth inked previous (' ' :: rest) =
      returnTypeLength budget depth inked ' ' rest + 1 := by
  have hsame : typeDepth (some previous) depth ' ' = depth := rfl
  have hblank : (inked || !isSpace ' ') = inked := Bool.or_false inked
  have hopen : 0 ≤ typeDepth (some previous) depth ' ' := by rwa [hsame]
  rw [returnTypeLength_next (by simp) hopen, hsame, hblank]

end

/-- Behind a colon as many characters are taken as the reading is long. -/
theorem returnType_colon (before rest : List Char) (ceiling : Int) :
    returnType (before ++ ':' :: rest) before.length ceiling =
      (if (squeeze (rest.take (returnTypeLength ceiling.toNat 0 false ':' rest))).isEmpty then none
        else some (squeeze (rest.take (returnTypeLength ceiling.toNat 0 false ':' rest))),
        before.length + 1 + returnTypeLength ceiling.toNat 0 false ':' rest) := by
  have hskip : skipBlanks (before ++ ':' :: rest) before.length = before.length := by
    have hcolon : isSpace ':' = false := by decide
    simp [skipBlanks, hcolon]
  have hdrop : (before ++ ':' :: rest).drop before.length = ':' :: rest := List.drop_left
  rw [returnType, hskip, hdrop]
  rfl

/-- Without a colon there is no return type. -/
theorem returnType_brace (before rest : List Char) (ceiling : Int) :
    returnType (before ++ ' ' :: '{' :: rest) before.length ceiling = (none, before.length + 1) := by
  have hskip : skipBlanks (before ++ ' ' :: '{' :: rest) before.length = before.length + 1 := by
    have hblank : isSpace ' ' = true := by decide
    have hbrace : isSpace '{' = false := by decide
    simp [skipBlanks, hblank, hbrace]
  have hdrop : (before ++ ' ' :: '{' :: rest).drop (before.length + 1) = '{' :: rest := by simp
  rw [returnType, hskip, hdrop]
  rfl

/-- A type that settles is read to its end. Since no character of it is an equals sign, every angle
bracket in it counts. -/
theorem returnTypeLength_settles {type : List Char} (hplain : ∀ c ∈ type, endsType c = false)
    (rest : List Char) :
    ∀ (budget depth : Nat) (inked : Bool) (previous : Char), previous ≠ '=' →
      Settles isTypeOpener isTypeCloser depth type →
      ∃ last, last ≠ '=' ∧
        returnTypeLength (type.length + budget) depth inked previous (type ++ rest) =
          returnTypeLength budget 0 (inked || type.any (!isSpace ·)) last rest + type.length := by
  induction type with
  | nil =>
    intro budget depth inked previous hprevious hsettles
    obtain rfl : depth = 0 := hsettles
    exact ⟨previous, hprevious, by simp⟩
  | cons c type ih =>
    intro budget depth inked previous hprevious hsettles
    have hc := hplain c List.mem_cons_self
    simp only [endsType, Bool.or_eq_false_iff, beq_eq_false_iff_ne] at hc
    obtain ⟨⟨⟨hbrace, -⟩, hsemicolon⟩, hequals⟩ := hc
    -- The depth of the scan changes as the text settles, since the character before is no equals
    -- sign.
    obtain ⟨depth', hdepth, hsettles⟩ : ∃ depth' : Nat,
        typeDepth (some previous) depth c = depth' ∧
          Settles isTypeOpener isTypeCloser depth' type := by
      rcases settles_cons.mp hsettles with ⟨ho, h⟩ | ⟨ho, hclose, outer, rfl, h⟩ | ⟨ho, hclose, h⟩
      · exact ⟨depth + 1, by simp [typeDepth, ho], h⟩
      · refine ⟨outer, ?_, h⟩
        cases hcloser : isCloser c with
        | true => simp [typeDepth, ho, hcloser]
        | false =>
          have hgreater : (c == '>') = true := by simpa [isTypeCloser, hcloser] using hclose
          simp [typeDepth, ho, hcloser, hgreater, hprevious]
      · simp only [isTypeCloser, Bool.or_eq_false_iff] at hclose
        exact ⟨depth, by simp [typeDepth, ho, hclose], h⟩
    obtain ⟨last, hlast, hrest⟩ := ih (fun d hd => hplain d (List.mem_cons_of_mem _ hd)) budget
      depth' (inked || !isSpace c) c hequals hsettles
    refine ⟨last, hlast, ?_⟩
    have hbudget : (c :: type).length + budget = (type.length + budget) + 1 := by
      rw [List.length_cons]
      omega
    -- None of the characters at which a type could end stands in it.
    have hgoes : (depth : Int) = 0 → ¬ (c = '{' ∧ inked = true ∨ c = ';' ∨
        c = '=' ∧ (type ++ rest).head? = some '>') := by
      rintro - (⟨h, -⟩ | h | ⟨h, -⟩)
      · exact hbrace h
      · exact hsemicolon h
      · exact hequals h
    have hopen : 0 ≤ typeDepth (some previous) depth c := hdepth ▸ Int.natCast_nonneg depth'
    rw [hbudget, List.cons_append, returnTypeLength_next hgoes hopen, hdepth, hrest, List.any_cons,
      Bool.or_assoc, List.length_cons]
    omega

/-- **Return types.** Behind a colon and a blank stands a type that is balanced; it ends at the
blank before the brace of the body. -/
theorem returnType_balanced (before : List Char) {type : List Char} (rest : List Char)
    {ceiling : Int} (hbalanced : Balanced isTypeOpener isTypeCloser type)
    (hplain : ∀ c ∈ type, endsType c = false)
    (hblank : isBlank type = false) (hceiling : (type.length : Int) + 2 ≤ ceiling) :
    returnType (before ++ (':' :: ' ' :: (type ++ ' ' :: '{' :: rest))) before.length ceiling =
      (some (squeeze type), before.length + (type.length + 3)) := by
  have hsettles := hbalanced.settles fun c hc => isTypeCloser_of_isTypeOpener hc
  have hlength : returnTypeLength ceiling.toNat 0 false ':' (' ' :: (type ++ ' ' :: '{' :: rest)) =
      type.length + 2 := by
    -- One step for the blank before the type, then the type, then the blank after it.
    obtain ⟨more, hmore⟩ : ∃ more, ceiling.toNat = (type.length + (more + 1)) + 1 :=
      ⟨ceiling.toNat - type.length - 2, by omega⟩
    obtain ⟨last, -, htype⟩ := returnTypeLength_settles hplain (' ' :: '{' :: rest) (more + 1) 0
      false ' ' (by decide) hsettles
    have hinked : (false || type.any fun c => !isSpace c) = true := by
      simpa [isBlank] using hblank
    rw [hinked, Int.natCast_zero] at htype
    rw [hmore, returnTypeLength_blank (Int.le_refl 0), htype, returnTypeLength_blank (Int.le_refl 0),
      returnTypeLength_stops (.inl ⟨rfl, rfl⟩)]
    omega
  have htake : (' ' :: (type ++ ' ' :: '{' :: rest)).take (type.length + 2) =
      ' ' :: (type ++ [' ']) := by
    rw [List.take_succ_cons, List.take_length_add_append]
    rfl
  have hoffset : before.length + 1 + (type.length + 2) = before.length + (type.length + 3) := by
    omega
  rw [returnType_colon, hlength, htake, squeeze_padded, squeeze_isEmpty hblank, hoffset]
  rfl

/-! ## Bodies -/

/-- A text that settles in braces is followed by the brace that closes the block around it. -/
theorem blockAhead?_settles {body : List Char} (rest : List Char) :
    ∀ depth : Nat, Settles (· == '{') (· == '}') depth body →
      blockAhead? depth (body ++ '}' :: rest) = some (body.length + 1) := by
  induction body with
  | nil =>
    intro depth hsettles
    obtain rfl : depth = 0 := hsettles
    rfl
  | cons c body ih =>
    intro depth hsettles
    rw [List.cons_append, blockAhead?.eq_def, List.length_cons]
    rcases settles_cons.mp hsettles with ⟨ho, h⟩ | ⟨ho, hc, outer, rfl, h⟩ | ⟨ho, hc, h⟩
    · simp only [ho, if_true, ih (depth + 1) h, Option.map_some]
    · simp only [ho, hc, Bool.false_eq_true, if_false, if_true, ih outer h, Option.map_some]
    · simp only [ho, hc, Bool.false_eq_true, if_false, ih depth h, Option.map_some]

/-- **Bodies.** The block that opens before a balanced body stops right behind it. It may be taken
from a place in front of its brace on. -/
theorem block_headed (before head : List Char) {body : List Char} (rest : List Char)
    (fallback : Int) {ceiling : Int} (hbalanced : Balanced (· == '{') (· == '}') body)
    (hceiling : (body.length : Int) + 1 ≤ ceiling) :
    block (before ++ (head ++ ('{' :: body ++ ['}'] ++ rest))) before.length
        (before.length + head.length) fallback ceiling =
      head ++ ('{' :: body ++ ['}']) := by
  have hsettles := hbalanced.settles fun c hc => by
    rw [beq_iff_eq] at hc
    subst hc
    rfl
  have htext : before ++ (head ++ ('{' :: body ++ ['}'] ++ rest)) =
      ((before ++ head) ++ ['{']) ++ (body ++ '}' :: rest) := by simp
  have hopening : indexFrom? ['{'] (before ++ (head ++ ('{' :: body ++ ['}'] ++ rest)))
      (max (before.length + head.length) before.length) = some (before.length + head.length) := by
    rw [Nat.max_eq_left (Nat.le_add_right _ _)]
    exact indexFrom?_here (by simp)
  have hahead (k : Nat) (hk : body.length + 1 ≤ k) :
      blockAhead? 0 ((body ++ '}' :: rest).take k) = some (body.length + 1) := by
    obtain ⟨more, rfl⟩ : ∃ more, k = body.length + (more + 1) := ⟨k - body.length - 1, by omega⟩
    rw [List.take_length_add_append, List.take_succ_cons]
    exact blockAhead?_settles (rest.take more) 0 hsettles
  -- The ceiling or the end of the file may come behind the closing brace, but not before it.
  have hscan (limit : Nat) (hlimit : before.length + head.length + 1 + (body.length + 1) ≤ limit) :
      blockAhead? 0 (between (before ++ (head ++ ('{' :: body ++ ['}'] ++ rest)))
        (before.length + head.length + 1) limit) = some (body.length + 1) := by
    have hdrop : (((before ++ head) ++ ['{']) ++ (body ++ '}' :: rest)).drop
        (before.length + head.length + 1) = body ++ '}' :: rest :=
      List.drop_left' (by simp only [List.length_append, List.length_singleton])
    rw [between, htext, hdrop]
    exact hahead _ (by omega)
  have htaken : between (before ++ (head ++ ('{' :: body ++ ['}'] ++ rest))) before.length
      (before.length + head.length + 1 + (body.length + 1)) = head ++ ('{' :: body ++ ['}']) := by
    have hmiddle := between_append before (head ++ ('{' :: body ++ ['}'])) rest
    have hlength : before.length + (head ++ ('{' :: body ++ ['}'])).length =
        before.length + head.length + 1 + (body.length + 1) := by
      simp only [List.cons_append, List.length_cons, List.length_append, List.length_nil]
      omega
    rw [hlength, List.append_assoc head] at hmiddle
    exact hmiddle
  have hlength : before.length + head.length + (body.length + 2) ≤
      (before ++ (head ++ ('{' :: body ++ ['}'] ++ rest))).length := by
    simp only [List.length_append, List.length_cons, List.length_nil]
    omega
  rw [block, hopening]
  simp only
  rw [hscan _ (by omega)]
  exact htaken

/-- A block that is taken from its brace on. -/
theorem block_balanced (before : List Char) {body : List Char} (rest : List Char) (fallback : Int)
    {ceiling : Int} (hbalanced : Balanced (· == '{') (· == '}') body)
    (hceiling : (body.length : Int) + 1 ≤ ceiling) :
    block (before ++ ('{' :: body ++ ['}'] ++ rest)) before.length before.length fallback ceiling =
      '{' :: body ++ ['}'] :=
  block_headed before [] rest fallback hbalanced hceiling

end CodeSurvey.Source
