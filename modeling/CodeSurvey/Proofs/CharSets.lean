import CodeSurvey.Pattern.Basic

/-!
# Comparing character sets

Whether every character of one set is in another can be worked out from how the sets are written.
The few that have to be asked one by one are the blanks and the characters of a range.

- `isWord_of_isSpace`: no blank is a word character.
- `CharSet.within`: a set whose characters are all in another, as far as that can be seen.
- `CharSet.mem_of_within`: what can be seen is so.
-/

namespace CodeSurvey

namespace Text

/-! ## Characters of a text -/

/-- What is said of the characters of a text is decided along the text, not over all characters. -/
instance decidableForallMem (p : Char → Prop) [DecidablePred p] (text : List Char) :
    Decidable (∀ c ∈ text, p c) :=
  List.decidableBAll p text

/-- What is said of a character that there may be is decided by looking at it. -/
instance decidableForallMemOption (p : Char → Prop) [DecidablePred p] (mark? : Option Char) :
    Decidable (∀ c ∈ mark?, p c) :=
  Option.decidableForallMem mark?

/-! ## Blanks -/

/-- The code points of all blanks. -/
def blankCodes : List Nat := [
  9, 10, 11, 12, 13, 28, 29, 30, 31, 32, 0x85, 0xA0, 0x1680, 0x2000, 0x2001, 0x2002, 0x2003, 0x2004,
  0x2005, 0x2006, 0x2007, 0x2008, 0x2009, 0x200A, 0x2028, 0x2029, 0x202F, 0x205F, 0x3000]

theorem mem_blankCodes {c : Char} (h : isSpace c = true) : c.toNat ∈ blankCodes := by
  simp only [isSpace] at h
  simp only [blankCodes, List.mem_cons, List.not_mem_nil, or_false]
  split at h <;>
    simp only [Bool.or_eq_true, Bool.and_eq_true, beq_iff_eq, decide_eq_true_eq] at h <;> omega

/-- Blanks are no word characters, in any script. -/
theorem isWord_of_isSpace {c : Char} (h : isSpace c = true) : isWord c = false := by
  -- There are few blanks, so the tables of letters are asked for each of them.
  have hcodes : ∀ n ∈ blankCodes, isWord (Char.ofNat n) = false := by decide +kernel
  have hc := hcodes c.toNat (mem_blankCodes h)
  rw [Char.ofNat_toNat] at hc
  exact hc

end Text

/-! ## Sets in one another -/

namespace CharSet

/-- Whether the sets have no character in common, where the second one is put together from single
characters and, if the first one is that of blanks, word characters. -/
def apart (s : CharSet) : CharSet → Bool
  | char c => !s.mem c
  | word => s = space
  | union t u => s.apart t && s.apart u
  | none => true
  | range _ _ | digit | space | all | compl _ | folded _ => false

/-- Whether the first set is a part of which the second one is put together, or avoids all that the
second one leaves out. -/
def isPart (s : CharSet) (k : CharSet) : Bool :=
  match k with
  | union t u => s = k || s.isPart t || s.isPart u
  | compl t => s = k || s.apart t
  | char _ | range _ _ | word | digit | space | all | none | folded _ => s = k

/-- Whether every character of the first set is in the second one. -/
def within (s k : CharSet) : Bool :=
  match s with
  | char c => k.mem c
  | space => s.isPart k || Text.blankCodes.all fun n => k.mem (Char.ofNat n)
  | range first last => (List.range (last.toNat + 1)).all fun n =>
      n < first.toNat || k.mem (Char.ofNat n)
  | union t u => (t.within k && u.within k) || s.isPart k
  | word | digit | all | none | compl _ | folded _ => s.isPart k

variable {s t k : CharSet} {c : Char}

theorem mem_eq_false_of_apart (h : s.apart t = true) (hs : s.mem c = true) : t.mem c = false := by
  induction t with
  | char d =>
    rw [apart, Bool.not_eq_true'] at h
    have hne : d ≠ c := by
      rintro rfl
      rw [hs] at h
      contradiction
    simpa [mem] using hne
  | union t u iht ihu =>
    rw [apart, Bool.and_eq_true] at h
    rw [mem, iht h.1, ihu h.2, Bool.or_false]
  | word =>
    obtain rfl : s = space := of_decide_eq_true h
    exact Text.isWord_of_isSpace hs
  | none => rfl
  | _ => contradiction

theorem mem_of_isPart (h : s.isPart k = true) (hs : s.mem c = true) : k.mem c = true := by
  induction k with
  | union t u iht ihu =>
    rw [isPart, Bool.or_eq_true, Bool.or_eq_true] at h
    rcases h with (h | h) | h
    · rw [← of_decide_eq_true h, hs]
    · rw [mem, iht h, Bool.true_or]
    · rw [mem, ihu h, Bool.or_true]
  | compl t =>
    rw [isPart, Bool.or_eq_true] at h
    rcases h with h | h
    · rw [← of_decide_eq_true h, hs]
    · rw [mem, mem_eq_false_of_apart h hs, Bool.not_false]
  | _ => rw [← of_decide_eq_true h, hs]

/-- **Sets in one another.** A set that is seen to lie in another does. The induction is on the
set. -/
theorem mem_of_within (h : s.within k = true) (hs : s.mem c = true) : k.mem c = true := by
  induction s with
  | char d =>
    obtain rfl : d = c := by simpa [mem] using hs
    exact h
  -- There are only a few blanks, and each of them is asked.
  | space =>
    rw [within, Bool.or_eq_true] at h
    rcases h with h | h
    · exact mem_of_isPart h hs
    · have hc := List.all_eq_true.mp h c.toNat (Text.mem_blankCodes hs)
      rw [Char.ofNat_toNat] at hc
      exact hc
  | range first last =>
    rw [mem, Bool.and_eq_true, decide_eq_true_eq, decide_eq_true_eq] at hs
    have hlow : first.toNat ≤ c.toNat := UInt32.le_iff_toNat_le.mp hs.1
    have hhigh : c.toNat ≤ last.toNat := UInt32.le_iff_toNat_le.mp hs.2
    have hc := List.all_eq_true.mp h c.toNat (List.mem_range.mpr (Nat.lt_succ_of_le hhigh))
    -- The code points in front of the range are not asked.
    rw [Bool.or_eq_true, decide_eq_true_eq, Char.ofNat_toNat] at hc
    exact hc.resolve_left (Nat.not_lt_of_le hlow)
  | union s t ihs iht =>
    rw [within, Bool.or_eq_true, Bool.and_eq_true] at h
    rcases h with ⟨hfirst, hsecond⟩ | h
    · rw [mem, Bool.or_eq_true] at hs
      exact hs.elim (ihs hfirst) (iht hsecond)
    · exact mem_of_isPart h hs
  | _ => exact mem_of_isPart h hs

end CharSet

end CodeSurvey
