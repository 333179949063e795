import CodeSurvey.Proofs.CodePlaces
import CodeSurvey.Proofs.Scans
import Mathlib.Order.Bounds.Basic
import Mathlib.Order.Nat

/-!
# Where scans stop

The scans for closing brackets and for the ends of expressions run over a text with a depth. Where
they stop can be said without the run: it is the first place outside literals at which brackets are
in balance and one more closes, or at which the scan ends anyway.

- `scanStops`: the places at which a scan may stop; `balancedPlaces`: the places up to which
  brackets of one kind are in balance.
- `passOver_of_not_stops`: a scan passes over a text in which it may stop nowhere.
- `closing?_isLeast`: the bracket that closes another one.
- `expressionEnd_isLeast`: the end of an expression.
-/

namespace CodeSurvey.Source

open Text

/-! ## Places to stop -/

/-- The places before a limit at which a scan that starts at `start` may stop: outside literals, as
many brackets have closed as have opened, and there one more closes or the scan ends anyway. -/
def scanStops (opens closes ends : Char → Bool) (text : List Char) (start limit : Nat) : Set Nat :=
  {place | start ≤ place ∧ place < limit ∧ CodeAt text start place ∧
    codeCount text start place (standsAt text opens) =
      codeCount text start place (standsAt text closes) ∧
    standsAt text (fun c => closes c || ends c) place = true}

/-- The places between `start` and a limit up to which, themselves included, as many brackets of one
kind have closed as have opened. -/
def balancedPlaces (opener closer : Char) (text : List Char) (start limit : Nat) : Set Nat :=
  {place | start < place ∧ place < limit ∧
    codeCount text start (place + 1) (standsAt text (· == opener)) =
      codeCount text start (place + 1) (standsAt text (· == closer))}

/-- A set of places has a first one before a limit, or none before it. -/
theorem isLeast_or_le (places : Set Nat) (limit : Nat) :
    (∃ first, IsLeast places first ∧ first < limit) ∨ ∀ place ∈ places, limit ≤ place := by
  classical
  by_cases hbefore : ∃ place ∈ places, place < limit
  · obtain ⟨place, hplace, hlimit⟩ := hbefore
    have hnonempty : places.Nonempty := ⟨place, hplace⟩
    have hleast := hnonempty.isLeast_natFind
    exact .inl ⟨_, hleast, Nat.lt_of_le_of_lt (hleast.2 hplace) hlimit⟩
  · exact .inr fun place hplace => Nat.le_of_not_lt fun h => hbefore ⟨place, hplace, h⟩

/-! ## What is passed over -/

section

variable {opens closes ends : Char → Bool} {text : List Char} {start limit place depth : Nat}
  {lit : Literal} {c : Char}

/-- A scan stops at a character if it stands outside literals and brackets there, and the character
closes a bracket or ends the scan. -/
theorem passChar_eq_none_iff :
    passChar opens closes ends c lit depth = none ↔
      lit = .code ∧ depth = 0 ∧ opens c = false ∧ (closes c || ends c) = true := by
  cases lit with
  | code =>
    cases depth <;> cases ho : opens c <;> cases hc : closes c <;> cases he : ends c <;>
      simp [passChar, ho, hc, he]
  | inside quote => simp [passChar]
  | escaped quote => simp [passChar]

/-- A place is in code if the scan stands outside literals there. -/
theorem codeAt_iff_of_passOver (hquotes : ∀ c, opens c || closes c → isQuote c = false)
    (h : passOver opens closes ends .code 0 (between text start place) = some (lit, depth)) :
    CodeAt text start place ↔ lit = .code := by
  rw [CodeAt, codeText_iff, passOver_literal hquotes _ h]

/-- The depth of a scan makes up for the brackets that have not closed. The induction is on the
place; each character counts as the scan reads it. -/
theorem codeCount_of_passOver (hquotes : ∀ c, opens c || closes c → isQuote c = false)
    (hapart : ∀ c, closes c || ends c → opens c = false) (hstart : start ≤ place)
    (hplace : place ≤ text.length)
    (h : passOver opens closes ends .code 0 (between text start place) = some (lit, depth)) :
    codeCount text start place (standsAt text opens) =
      codeCount text start place (standsAt text closes) + depth := by
  induction place, hstart using Nat.le_induction generalizing lit depth with
  | base =>
    rw [between, Nat.sub_self, List.take_zero, passOver_nil, Option.some.injEq, Prod.mk.injEq] at h
    rw [codeCount_self, codeCount_self, ← h.2]
  | succ place hstart ih =>
    have hlength : place < text.length := hplace
    rw [between_succ hstart hlength, passOver_append, Option.bind_eq_some_iff] at h
    obtain ⟨⟨lit', depth'⟩, hbefore, hchar⟩ := h
    rw [passOver_cons, Option.bind_eq_some_iff] at hchar
    obtain ⟨here, hchar, hnil⟩ := hchar
    obtain rfl : here = (lit, depth) := Option.some.inj hnil
    have hcount := ih (Nat.le_of_lt hlength) hbefore
    have hcode := codeAt_iff_of_passOver hquotes hbefore
    have hstands := standsAt_of_getElem? (List.getElem?_eq_getElem hlength)
    simp only [codeCount_succ hstart, hcode, hstands]
    cases lit' with
    | code =>
      -- At depth zero the character closes nothing, or the scan would have stopped at it.
      have hopens := hapart text[place]
      cases depth' <;> grind [passChar]
    | inside quote => grind [passChar]
    | escaped quote => grind [passChar]

/-- Where a scan may stop, it does. -/
theorem mem_scanStops_iff (hquotes : ∀ c, opens c || closes c → isQuote c = false)
    (hapart : ∀ c, closes c || ends c → opens c = false) (hstart : start ≤ place)
    (hlimit : place < limit) (hplace : place < text.length)
    (h : passOver opens closes ends .code 0 (between text start place) = some (lit, depth)) :
    place ∈ scanStops opens closes ends text start limit ↔
      passChar opens closes ends text[place] lit depth = none := by
  have hcount := codeCount_of_passOver hquotes hapart hstart (Nat.le_of_lt hplace) h
  have hstands := standsAt_of_getElem? (List.getElem?_eq_getElem hplace)
  rw [passChar_eq_none_iff, ← codeAt_iff_of_passOver hquotes h]
  show _ ∧ _ ∧ _ ∧ _ ∧ _ ↔ _
  rw [hstands, hcount]
  constructor
  · rintro ⟨-, -, hcode, hbalance, hends⟩
    exact ⟨hcode, by omega, hapart _ hends, hends⟩
  · rintro ⟨hcode, rfl, -, hends⟩
    exact ⟨hstart, hlimit, hcode, rfl, hends⟩

/-- A scan passes over a text in which it may stop nowhere. -/
theorem passOver_of_not_stops (hquotes : ∀ c, opens c || closes c → isQuote c = false)
    (hapart : ∀ c, closes c || ends c → opens c = false) (hstart : start ≤ place)
    (hplace : place ≤ text.length) (hlimit : place ≤ limit)
    (hstops : ∀ stop ∈ scanStops opens closes ends text start limit, place ≤ stop) :
    ∃ lit depth,
      passOver opens closes ends .code 0 (between text start place) = some (lit, depth) := by
  induction place, hstart using Nat.le_induction with
  | base => exact ⟨.code, 0, by rw [between, Nat.sub_self, List.take_zero, passOver_nil]⟩
  | succ place hstart ih =>
    have hlength : place < text.length := hplace
    obtain ⟨lit, depth, hbefore⟩ := ih (Nat.le_of_lt hplace) (Nat.le_of_lt hlimit)
      fun stop hstop => Nat.le_of_lt (hstops stop hstop)
    cases hchar : passChar opens closes ends text[place] lit depth with
    | none =>
      have hstop := (mem_scanStops_iff hquotes hapart hstart hlimit hlength hbefore).mpr hchar
      exact absurd (hstops place hstop) (Nat.not_succ_le_self place)
    | some here =>
      refine ⟨here.1, here.2, ?_⟩
      rw [between_succ hstart hlength, passOver_append, hbefore, Option.bind_some, passOver_cons,
        hchar, Option.bind_some, passOver_nil]

/-- A scan passes over the text before the first place at which it may stop, and stops there. -/
theorem passOver_of_isLeast (hquotes : ∀ c, opens c || closes c → isQuote c = false)
    (hapart : ∀ c, closes c || ends c → opens c = false) (hlimit : limit ≤ text.length)
    (hfirst : IsLeast (scanStops opens closes ends text start limit) place) :
    ∃ lit depth c rest, between text start limit = between text start place ++ c :: rest ∧
      passOver opens closes ends .code 0 (between text start place) = some (lit, depth) ∧
      passChar opens closes ends c lit depth = none := by
  obtain ⟨hstart, hbefore, -⟩ := hfirst.1
  have hplace : place < text.length := Nat.lt_of_lt_of_le hbefore hlimit
  obtain ⟨lit, depth, hpass⟩ := passOver_of_not_stops hquotes hapart hstart (Nat.le_of_lt hplace)
    (Nat.le_of_lt hbefore) fun stop hstop => hfirst.2 hstop
  refine ⟨lit, depth, text[place], between text (place + 1) limit, ?_, hpass,
    (mem_scanStops_iff hquotes hapart hstart hbefore hplace hpass).mp hfirst.1⟩
  rw [between_split text (Nat.le_succ_of_le hstart) hbefore, between_succ hstart hplace,
    List.append_assoc, List.singleton_append]

end

/-! ## Closing brackets -/

section

variable {text : List Char} {start : Nat} {opener closer : Char}

/-- The brackets of a kind are no quotes. -/
theorem isQuote_of_kind (hkind : closer? opener = some closer) (c : Char)
    (hc : c == opener || c == closer) : isQuote c = false :=
  isQuote_of_bracket c (isBracket_of_closer? hkind c hc)

/-- The brackets of a kind are told apart. -/
theorem opens_of_closes (hkind : closer? opener = some closer) (c : Char)
    (hc : c == closer || never c) : (c == opener) = false := by
  obtain rfl : c = closer := by simpa [never] using hc
  exact closer_ne_opener hkind

/-- What a scan may look at, told by the places between which it lies. -/
theorem window_eq_between (text : List Char) (start ceiling : Nat) :
    window text start ceiling = between text start (min text.length (start + ceiling)) := by
  rw [window, between, Int.toNat_natCast, List.take_eq_take_iff, List.length_drop]
  omega

/-- A bracket is read first, and what follows it with one bracket open. -/
theorem closing?_eq_closeAhead? (hopener : text[start]? = some opener)
    (hkind : closer? opener = some closer) (ceiling : Nat) :
    closing? text start ceiling =
      (closeAhead? opener closer .code 1
        (between text (start + 1) (min text.length (start + ceiling)))).map (· + (start + 1)) := by
  obtain ⟨hstart, hget⟩ := List.getElem?_eq_some_iff.mp hopener
  rw [closing?, window_eq_between, hopener]
  simp only [Option.bind_eq_bind, Option.bind_some, hkind]
  cases ceiling with
  | zero =>
    -- Here not even the bracket at the start is read.
    rw [Nat.add_zero, Nat.min_eq_right (Nat.le_of_lt hstart)]
    simp [between, closeAhead?]
  | succ more =>
    have hfirst : between text start (min text.length (start + (more + 1))) =
        opener :: between text (start + 1) (min text.length (start + (more + 1))) := by
      rw [between_split text (Nat.le_succ start) (by omega),
        between_succ (Nat.le_refl start) hstart, hget]
      simp [between]
    rw [hfirst, closeAhead?, if_pos (beq_self_eq_true _), Option.map_map]
    congr 1
    funext ahead
    exact Nat.add_right_comm ahead 1 start

/-- The bracket at which a scan starts counts once. -/
theorem codeCount_opener (hopener : text[start]? = some opener)
    (hkind : closer? opener = some closer) {place : Nat} (hplace : start < place) :
    codeCount text start place (standsAt text (· == opener)) =
        codeCount text (start + 1) place (standsAt text (· == opener)) + 1 ∧
      codeCount text start place (standsAt text (· == closer)) =
        codeCount text (start + 1) place (standsAt text (· == closer)) := by
  obtain ⟨hstart, hget⟩ := List.getElem?_eq_some_iff.mp hopener
  have hquote : isQuote opener = false := isQuote_of_kind hkind opener (by simp)
  have hcode : CodeAt text start (start + 1) := by
    rw [CodeAt, between_succ (Nat.le_refl start) hstart, hget, between, Nat.sub_self,
      List.take_zero]
    exact .plain hquote .empty
  have hdifferent : (opener == closer) = false := by
    rw [Bool.beq_comm]
    exact closer_ne_opener hkind
  have hfirst (sort : Char → Bool) : codeCount text start place (standsAt text sort) =
      (if sort opener = true then 1 else 0) +
        codeCount text (start + 1) place (standsAt text sort) := by
    rw [codeCount_from (Nat.le_add_right start 1) hplace hcode, codeCount_succ (Nat.le_refl start),
      codeCount_self, Nat.zero_add, standsAt_of_getElem? hopener]
    simp only [codeAt_start, true_and]
  rw [hfirst, hfirst, if_pos (beq_self_eq_true _), hdifferent, if_neg Bool.false_ne_true]
  exact ⟨Nat.add_comm .., Nat.zero_add _⟩

/-- Where a scan from behind a bracket stops, brackets of that kind are in balance since that one,
and before that place they are not. -/
theorem isLeast_balancedPlaces (hopener : text[start]? = some opener)
    (hkind : closer? opener = some closer) {limit : Nat} (hlimit : limit ≤ text.length) :
    (∃ place, IsLeast (scanStops (· == opener) (· == closer) never text (start + 1) limit) place ∧
        IsLeast (balancedPlaces opener closer text start limit) place) ∨
      (scanStops (· == opener) (· == closer) never text (start + 1) limit = ∅ ∧
        balancedPlaces opener closer text start limit = ∅) := by
  have hquotes := isQuote_of_kind hkind
  have hapart := opens_of_closes hkind
  -- Up to a place at which the scan may stop, the bracket at the start and the one there make up
  -- for each other.
  have hbalanced : scanStops (· == opener) (· == closer) never text (start + 1) limit ⊆
      balancedPlaces opener closer text start limit := by
    rintro place ⟨hbehind, hplace, hcode, hcounts, hcloser⟩
    obtain ⟨hopeners, hclosers⟩ := codeCount_opener hopener hkind (Nat.lt_succ_of_lt hbehind)
    have hget := List.getElem?_eq_getElem (Nat.lt_of_lt_of_le hplace hlimit)
    rw [standsAt_of_getElem? hget] at hcloser
    refine ⟨hbehind, hplace, ?_⟩
    rw [hopeners, hclosers, codeCount_succ hbehind, codeCount_succ hbehind, hcounts,
      standsAt_of_getElem? hget, standsAt_of_getElem? hget, hapart _ hcloser]
    simp [hcode, (by simpa [never] using hcloser : text[place] = closer)]
  -- Before the scan may stop, one bracket more has opened than has closed.
  have hbefore (place : Nat) (hplace : place ∈ balancedPlaces opener closer text start limit) :
      ∃ stop ∈ scanStops (· == opener) (· == closer) never text (start + 1) limit,
        stop ≤ place := by
    obtain ⟨hbehind, hplace, hcounts⟩ := hplace
    by_contra hnone
    have hstart : start + 1 ≤ place + 1 := Nat.le_succ_of_le hbehind
    obtain ⟨lit, depth, hpass⟩ := passOver_of_not_stops hquotes hapart hstart
      (Nat.le_trans hplace hlimit) hplace fun stop hstop =>
        Nat.lt_of_not_le fun hle => hnone ⟨stop, hstop, hle⟩
    have hdepth := codeCount_of_passOver hquotes hapart hstart (Nat.le_trans hplace hlimit) hpass
    obtain ⟨hopeners, hclosers⟩ := codeCount_opener hopener hkind hstart
    omega
  rcases isLeast_or_le (scanStops (· == opener) (· == closer) never text (start + 1) limit)
    limit with ⟨first, hfirst, -⟩ | hnone
  · left
    refine ⟨first, hfirst, hbalanced hfirst.1, fun place hplace => ?_⟩
    obtain ⟨stop, hstop, hle⟩ := hbefore place hplace
    exact (hfirst.2 hstop).trans hle
  · right
    have hempty : scanStops (· == opener) (· == closer) never text (start + 1) limit = ∅ := by
      apply Set.eq_empty_of_forall_notMem
      intro stop hstop
      exact absurd hstop.2.1 (Nat.not_lt_of_le (hnone stop hstop))
    refine ⟨hempty, Set.eq_empty_of_forall_notMem fun place hplace => ?_⟩
    obtain ⟨stop, hstop, -⟩ := hbefore place hplace
    rw [hempty] at hstop
    exact hstop

/-- What the scan for a closing bracket finds is the first place up to which brackets of that kind
are in balance. -/
theorem closing?_cases (hopener : text[start]? = some opener)
    (hkind : closer? opener = some closer) (ceiling : Nat) :
    (∃ place, closing? text start ceiling = some place ∧
        IsLeast (balancedPlaces opener closer text start (min text.length (start + ceiling)))
          place) ∨
      (closing? text start ceiling = none ∧
        balancedPlaces opener closer text start (min text.length (start + ceiling)) = ∅) := by
  have hquotes := isQuote_of_kind hkind
  have hapart := opens_of_closes hkind
  have hlimit : min text.length (start + ceiling) ≤ text.length := Nat.min_le_left ..
  rw [closing?_eq_closeAhead? hopener hkind]
  rcases isLeast_balancedPlaces hopener hkind hlimit with
    ⟨place, hstop, hplace⟩ | ⟨hnone, hempty⟩
  · left
    refine ⟨place, ?_, hplace⟩
    obtain ⟨hbehind, hbefore, -⟩ := hstop.1
    obtain ⟨lit, depth, c, rest, hsplit, hpass, hchar⟩ :=
      passOver_of_isLeast hquotes hapart hlimit hstop
    have hlength : (between text (start + 1) place).length = place - (start + 1) := by
      rw [length_between]
      omega
    rw [hsplit, closeAhead?_append _ _ hpass, closeAhead?_cons_of_stops rest hchar, Option.map_some,
      Option.map_some, hlength]
    congr 1
    omega
  · right
    refine ⟨?_, hempty⟩
    by_cases hany : start + 1 ≤ min text.length (start + ceiling)
    · have hstops : ∀ stop ∈ scanStops (· == opener) (· == closer) never text (start + 1)
          (min text.length (start + ceiling)), min text.length (start + ceiling) ≤ stop := by
        rw [hnone]
        exact fun stop hstop => absurd hstop (Set.notMem_empty stop)
      obtain ⟨lit, depth, hpass⟩ :=
        passOver_of_not_stops hquotes hapart hany hlimit (Nat.le_refl _) hstops
      rw [← List.append_nil (between text (start + 1) _), closeAhead?_append _ _ hpass]
      simp [closeAhead?]
    · rw [between, Nat.sub_eq_zero_of_le (Nat.le_of_not_le hany), List.take_zero]
      simp [closeAhead?]

end

/-- **Closing brackets.** The scan from a bracket finds the first place behind it, within the
ceiling and the text, up to which as many brackets of that kind have closed outside literals as have
opened; it finds nothing exactly if there is no such place; and what it finds is found under every
higher ceiling. -/
theorem closing?_isLeast (text : List Char) {start : Nat} {opener closer : Char}
    (hopener : text[start]? = some opener) (hkind : closer? opener = some closer) (ceiling : Nat) :
    (∀ place, closing? text start ceiling = some place ↔
      IsLeast (balancedPlaces opener closer text start (min text.length (start + ceiling))) place) ∧
    (closing? text start ceiling = none ↔
      balancedPlaces opener closer text start (min text.length (start + ceiling)) = ∅) ∧
    ∀ place, closing? text start ceiling = some place → ∀ higher : Nat, ceiling ≤ higher →
      closing? text start higher = some place := by
  have hfound (ceiling place : Nat) : closing? text start ceiling = some place ↔
      IsLeast (balancedPlaces opener closer text start (min text.length (start + ceiling)))
        place := by
    rcases closing?_cases hopener hkind ceiling with ⟨other, hother, hleast⟩ | ⟨hnone, hempty⟩
    · rw [hother, Option.some.injEq]
      constructor
      · rintro rfl
        exact hleast
      · exact hleast.unique
    · simp [hnone, hempty, IsLeast]
  refine ⟨hfound ceiling, ?_, ?_⟩
  · rcases closing?_cases hopener hkind ceiling with ⟨other, hother, hleast⟩ | ⟨hnone, hempty⟩
    · have hnonempty := Set.nonempty_iff_ne_empty.mp ⟨other, hleast.1⟩
      simp [hother, hnonempty]
    · simp [hnone, hempty]
  · intro place hplace higher hhigher
    obtain ⟨⟨hbehind, hbefore, hcounts⟩, hleast⟩ := (hfound ceiling place).mp hplace
    refine (hfound higher place).mpr ⟨⟨hbehind, by omega, hcounts⟩, ?_⟩
    rintro other ⟨hother, hlimit, hbalance⟩
    -- A place beyond the lower ceiling lies behind the one that was found below it.
    by_cases hlow : other < min text.length (start + ceiling)
    · exact hleast ⟨hother, hlow, hbalance⟩
    · omega

/-- A list of parameters with parentheses in literals, one of them behind an escaped quote, under a
ceiling that lets its closing one be seen and under one that does not. -/
theorem closing?_isLeast_literals :
    let text := "f(')', (a), \"\\\")\") => (b)".toList
    (text[1]? = some '(' ∧ closer? '(' = some ')') ∧
      IsLeast (balancedPlaces '(' ')' text 1 (min text.length (1 + 17))) 17 ∧
      balancedPlaces '(' ')' text 1 (min text.length (1 + 16)) = ∅ ∧
      closing? text 1 (5000 : Nat) = some 17 := by
  intro text
  have hopener : text[1]? = some '(' := rfl
  have hkind : closer? '(' = some ')' := rfl
  obtain ⟨hfound, -, hhigher⟩ := closing?_isLeast text hopener hkind 17
  obtain ⟨-, hnone, -⟩ := closing?_isLeast text hopener hkind 16
  have hclosing : closing? text 1 (17 : Nat) = some 17 := by decide
  exact ⟨⟨hopener, hkind⟩, (hfound 17).mp hclosing, hnone.mp (by decide),
    hhigher 17 hclosing 5000 (by decide)⟩

/-! ## Ends of expressions -/

/-- **Ends of expressions.** An expression ends at the first place outside literals, within the
ceiling and the text, at which there is a semicolon or a line feed outside brackets, or a bracket
that closes more than was opened. Where there is no such place it ends where the scan does, or one
character further if that is in the middle of an escape. -/
theorem expressionEnd_isLeast (text : List Char) (start ceiling : Nat) :
    IsLeast (scanStops isOpener isCloser breaks text start (min text.length (start + ceiling)))
        (expressionEnd text start ceiling) ∨
      (scanStops isOpener isCloser breaks text start (min text.length (start + ceiling)) = ∅ ∧
        min text.length (start + ceiling) ≤ expressionEnd text start ceiling ∧
        expressionEnd text start ceiling ≤ max start (min text.length (start + ceiling)) + 1) := by
  have hapart (c : Char) (hc : isCloser c || breaks c) : isOpener c = false := by
    simp only [isCloser, breaks, Bool.or_eq_true, beq_iff_eq] at hc
    rcases hc with ((rfl | rfl) | rfl) | (rfl | rfl) <;> rfl
  have hlimit : min text.length (start + ceiling) ≤ text.length := Nat.min_le_left ..
  have hlength (place : Nat) (hstart : start ≤ place) (hplace : place ≤ text.length) :
      start + (between text start place).length = place := by
    rw [length_between]
    omega
  rw [expressionEnd, window_eq_between]
  rcases isLeast_or_le
    (scanStops isOpener isCloser breaks text start (min text.length (start + ceiling)))
    (min text.length (start + ceiling)) with ⟨place, hfirst, hbefore⟩ | hnone
  · left
    obtain ⟨lit, depth, c, rest, hsplit, hpass, hchar⟩ :=
      passOver_of_isLeast isQuote_of_bracket hapart hlimit hfirst
    rw [hsplit, expressionAhead_append _ _ hpass, expressionAhead_cons_of_stops rest hchar,
      Nat.zero_add, hlength place hfirst.1.1 (Nat.le_of_lt (Nat.lt_of_lt_of_le hbefore hlimit))]
    exact hfirst
  · right
    refine ⟨Set.eq_empty_of_forall_notMem fun stop hstop =>
      absurd hstop.2.1 (Nat.not_lt_of_le (hnone stop hstop)), ?_⟩
    by_cases hany : start ≤ min text.length (start + ceiling)
    · obtain ⟨lit, depth, hpass⟩ :=
        passOver_of_not_stops isQuote_of_bracket hapart hany hlimit (Nat.le_refl _) hnone
      have hend := expressionAhead_append (between text start _) [] hpass
      have hpast : expressionAhead lit depth [] ≤ 1 := by
        cases lit <;> simp [expressionAhead]
      have hlimit := hlength _ hany hlimit
      rw [List.append_nil] at hend
      rw [hend]
      omega
    · rw [between, Nat.sub_eq_zero_of_le (Nat.le_of_not_le hany), List.take_zero]
      simp only [expressionAhead]
      omega

end CodeSurvey.Source
