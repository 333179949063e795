import CodeSurvey.Source.Bracket

/-!
# Levels of braces

The level of a text is how many more braces it opens than it closes. A block stops where the level
of what follows its opening brace falls below zero for the first time, so blocks nest: a block that
opens inside another stops before the other one does.

- `level`: the level of a text.
- `level_of_blockAhead?`, `level_of_not_blockAhead?`: where a block stops, and that it does not.
- `exists_blockAhead?`: a block stops where the level has fallen, or before.
- `length_block_le`: a block inside another one.
-/

namespace CodeSurvey.Source

open Text

/-! ## Levels -/

/-- How many more braces a text opens than it closes. -/
def level (text : List Char) : Int :=
  (count '{' text : Int) - (count '}' text : Int)

@[simp] theorem level_nil : level [] = 0 := rfl

theorem level_append (first second : List Char) :
    level (first ++ second) = level first + level second := by
  simp only [level, count, List.count_append]
  omega

theorem level_cons (c : Char) (text : List Char) :
    level (c :: text) = (if c == '{' then 1 else if c == '}' then -1 else 0) + level text := by
  simp only [level, count, List.count_cons]
  by_cases hopen : c = '{'
  · subst hopen
    simp
    omega
  · by_cases hclose : c = '}'
    · subst hclose
      simp
      omega
    · simp [hopen, hclose]

/-- A text without braces is level. -/
theorem level_eq_zero {text : List Char} (h : ∀ c ∈ text, c ≠ '{' ∧ c ≠ '}') : level text = 0 := by
  have hopen : '{' ∉ text := fun hc => (h _ hc).1 rfl
  have hclose : '}' ∉ text := fun hc => (h _ hc).2 rfl
  simp [level, count, List.count_eq_zero_of_not_mem hopen, List.count_eq_zero_of_not_mem hclose]

/-- The level of a part is that of what stands before its middle and of what stands behind. -/
theorem level_between (text : List Char) {start middle stop : Nat} (hstart : start ≤ middle)
    (hstop : middle ≤ stop) :
    level (between text start stop) =
      level (between text start middle) + level (between text middle stop) := by
  rw [between_split text hstart hstop, level_append]

/-- A brace that opens brings the level to one. -/
theorem level_brace {text : List Char} {place : Nat} (h : text[place]? = some '{') :
    level (between text place (place + 1)) = 1 := by
  obtain ⟨hplace, hget⟩ := List.getElem?_eq_some_iff.mp h
  rw [between, List.drop_eq_getElem_cons hplace, hget, Nat.add_sub_cancel_left,
    List.take_succ_cons, List.take_zero]
  rfl

/-! ## Where blocks stop -/

/-- Where a block stops, the level has fallen below that of its opening brace, and nowhere before.
The induction is on the text, from every depth. -/
theorem level_of_blockAhead? (text : List Char) : ∀ {depth n : Nat},
    blockAhead? depth text = some n →
      n ≤ text.length ∧ level (text.take n) = -(depth + 1 : Int) ∧
        ∀ k < n, -(depth : Int) ≤ level (text.take k) := by
  induction text with
  | nil =>
    intro depth n h
    contradiction
  | cons c text ih =>
    intro depth n h
    -- The level behind the first character, once it is known at which depth the scan goes on.
    have hgoes (depth' : Nat) (change : Int)
        (hchange : level [c] = change) (hdepth : (depth' : Int) = depth + change)
        (h : (blockAhead? depth' text).map (· + 1) = some n) :
        n ≤ (c :: text).length ∧ level ((c :: text).take n) = -(depth + 1 : Int) ∧
          ∀ k < n, -(depth : Int) ≤ level ((c :: text).take k) := by
      obtain ⟨n, hahead, rfl⟩ := Option.map_eq_some_iff.mp h
      obtain ⟨hlength, hstop, hbefore⟩ := ih hahead
      have hcons (k : Nat) : level ((c :: text).take (k + 1)) = change + level (text.take k) := by
        rw [List.take_succ_cons, ← List.singleton_append, level_append, hchange]
      refine ⟨Nat.succ_le_succ hlength, by rw [hcons, hstop]; omega, ?_⟩
      intro k hk
      cases k with
      | zero => simp
      | succ k =>
        have hk := hbefore k (Nat.lt_of_succ_lt_succ hk)
        rw [hcons]
        omega
    rw [blockAhead?.eq_def] at h
    dsimp only at h
    by_cases hopen : (c == '{') = true
    · rw [if_pos hopen] at h
      obtain rfl : c = '{' := beq_iff_eq.mp hopen
      exact hgoes (depth + 1) 1 rfl (by omega) h
    · rw [if_neg hopen] at h
      by_cases hclose : (c == '}') = true
      · rw [if_pos hclose] at h
        obtain rfl : c = '}' := beq_iff_eq.mp hclose
        cases depth with
        | zero =>
          obtain rfl : 1 = n := Option.some.inj h
          refine ⟨Nat.succ_pos _, by rw [List.take_succ_cons, List.take_zero]; rfl, ?_⟩
          intro k hk
          obtain rfl : k = 0 := Nat.lt_one_iff.mp hk
          simp
        | succ outer => exact hgoes outer (-1) rfl (by omega) h
      · rw [if_neg hclose] at h
        have hplain : level [c] = 0 := by
          apply level_eq_zero
          simp_all
        exact hgoes depth 0 hplain (by omega) h

/-- Where no block stops, the level never falls below that of its opening brace. -/
theorem level_of_not_blockAhead? (text : List Char) : ∀ {depth : Nat},
    blockAhead? depth text = none → ∀ k, -(depth : Int) ≤ level (text.take k) := by
  induction text with
  | nil =>
    intro depth _ k
    simp
  | cons c text ih =>
    intro depth h k
    cases k with
    | zero => simp
    | succ k =>
      rw [blockAhead?.eq_def] at h
      dsimp only at h
      rw [List.take_succ_cons, level_cons]
      by_cases hopen : (c == '{') = true
      · rw [if_pos hopen, Option.map_eq_none_iff] at h
        have hk := ih h k
        rw [if_pos hopen]
        omega
      · rw [if_neg hopen] at h ⊢
        by_cases hclose : (c == '}') = true
        · rw [if_pos hclose] at h ⊢
          cases depth with
          -- A block that is not nested would stop here.
          | zero => contradiction
          | succ outer =>
            have hk := ih (Option.map_eq_none_iff.mp h) k
            omega
        · rw [if_neg hclose, Option.map_eq_none_iff] at h
          have hk := ih h k
          rw [if_neg hclose]
          omega

/-- **Blocks stop.** A block stops where the level has fallen below that of its opening brace, or
before. -/
theorem exists_blockAhead? {text : List Char} {depth k : Nat}
    (h : level (text.take k) < -(depth : Int)) : ∃ n ≤ k, blockAhead? depth text = some n := by
  cases hahead : blockAhead? depth text with
  | none =>
    have hk := level_of_not_blockAhead? text hahead k
    omega
  | some n =>
    obtain ⟨-, -, hbefore⟩ := level_of_blockAhead? text hahead
    refine ⟨n, Nat.le_of_not_lt fun hlate => ?_, rfl⟩
    have hk := hbefore k hlate
    omega

/-! ## Blocks from their opening brace -/

/-- The offset up to which a block that opens at a place is looked at. -/
def blockLimit (text : List Char) (opening : Nat) (ceiling : Int) : Int :=
  min text.length (opening + 1 + ceiling)

/-- What is taken from `start` on for a block that opens at a place. -/
theorem block_eq (text : List Char) {start opening : Nat} (hstart : start ≤ opening)
    (hopening : text[opening]? = some '{') (fallback ceiling : Int) :
    block text start opening fallback ceiling =
      match blockAhead? 0 (between text (opening + 1) (blockLimit text opening ceiling).toNat) with
      | some n => between text start (opening + 1 + n)
      | none => cut text start (blockLimit text opening ceiling) := by
  rw [block, Nat.max_eq_left hstart, indexFrom?_here hopening]
  rfl

/-- Behind the opening brace of a block that closes, the level is not below zero up to the closing
brace, and it is below zero behind that. -/
theorem level_of_closes {text : List Char} {opening n limit : Nat}
    (hcloses : blockAhead? 0 (between text (opening + 1) limit) = some n) :
    opening + 1 + n ≤ limit ∧ level (between text (opening + 1) (opening + 1 + n)) = -1 ∧
      ∀ place < opening + 1 + n, 0 ≤ level (between text (opening + 1) place) := by
  obtain ⟨hlength, hstop, hbefore⟩ := level_of_blockAhead? _ hcloses
  have hlimit : n ≤ limit - (opening + 1) := by
    rw [between, List.length_take] at hlength
    omega
  have htake (k : Nat) (hk : k ≤ n) :
      (between text (opening + 1) limit).take k = between text (opening + 1) (opening + 1 + k) := by
    rw [between, between, List.take_take, Nat.add_sub_cancel_left, Nat.min_eq_left (by omega)]
  have hpositive : 0 < n := by
    cases n with
    | zero => simp at hstop
    | succ n => exact Nat.succ_pos n
  refine ⟨by omega, by rw [← htake n (Nat.le_refl n), hstop]; rfl, ?_⟩
  intro place hplace
  by_cases hbehind : opening + 1 ≤ place
  · have hk := hbefore (place - (opening + 1)) (by omega)
    rw [htake _ (by omega), Nat.add_sub_cancel' hbehind] at hk
    simpa using hk
  · rw [between, Nat.sub_eq_zero_of_le (by omega), List.take_zero]
    exact Int.le_refl 0

/-- **Nested blocks.** A block that opens in another one, before that one closes, stops no later. -/
theorem length_block_le {text : List Char} {opening n inner : Nat} {ceiling : Int}
    (hcloses : blockAhead? 0 (between text (opening + 1) (blockLimit text opening ceiling).toNat) =
      some n)
    (hinner : text[inner]? = some '{') (hbehind : opening < inner)
    (hbefore : inner < opening + 1 + n) (fallback : Int) :
    inner + (block text inner inner fallback ceiling).length ≤ opening + 1 + n := by
  obtain ⟨hlimit, hstop, hlevel⟩ := level_of_closes hcloses
  -- The brace brings the level to one or more, so the outer one is not the next to close.
  have hupTo := hlevel inner hbefore
  have hopened : 1 ≤ level (between text (opening + 1) (inner + 1)) := by
    rw [level_between text (by omega : opening + 1 ≤ inner) (Nat.le_succ inner),
      level_brace hinner]
    omega
  have hinside : inner + 1 < opening + 1 + n := by
    apply Nat.lt_of_le_of_ne hbefore
    intro (hsame : inner + 1 = opening + 1 + n)
    rw [hsame, hstop] at hopened
    omega
  have hrest : level (between text (inner + 1) (opening + 1 + n)) < 0 := by
    rw [level_between text (by omega : opening + 1 ≤ inner + 1) (Nat.le_of_lt hinside)] at hstop
    omega
  -- The ceiling of the inner block counts from further on.
  have hfurther : opening + 1 + n ≤ (blockLimit text inner ceiling).toNat := by
    unfold blockLimit at hlimit ⊢
    omega
  have htake : (between text (inner + 1) (blockLimit text inner ceiling).toNat).take
      (opening + 1 + n - (inner + 1)) = between text (inner + 1) (opening + 1 + n) := by
    rw [between, between, List.take_take, Nat.min_eq_left (by omega)]
  have hfalls : level ((between text (inner + 1) (blockLimit text inner ceiling).toNat).take
      (opening + 1 + n - (inner + 1))) < -((0 : Nat) : Int) := by
    rw [htake]
    simpa using hrest
  obtain ⟨k, hk, hahead⟩ := exists_blockAhead? hfalls
  rw [block_eq text (Nat.le_refl inner) hinner, hahead]
  dsimp only
  rw [between, List.length_take]
  omega

end CodeSurvey.Source
