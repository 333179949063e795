import CodeSurvey.Text.Basic
import Mathlib.Data.List.DropRight

/-!
# Squeezed texts

A text is squeezed if its words stand one blank apart and nothing else is blank in it. Squeezed
texts that are put together with one blank between neighbours are squeezed.

- `words_append_blank`: a blank parts the words before it from those behind it.
- `squeeze_join`: squeezed parts make a squeezed text.
- `trim_of_squeezed`: a squeezed text has no blanks around it.
- `trimEnd_append_inked`: what is taken away at the end of a text.
-/

namespace CodeSurvey.Text

/-! ## Words -/

/-- A blank ends the word that is being read. -/
theorem wordsFrom_append_blank {c : Char} (hc : isSpace c = true) (front back : List Char) :
    ∀ word : List Char, wordsFrom word (front ++ c :: back) = wordsFrom word front ++ words back := by
  induction front with
  | nil =>
    intro word
    by_cases hword : word.isEmpty = true <;> simp [wordsFrom, words, hc, hword]
  | cons d front ih =>
    intro word
    rw [List.cons_append, wordsFrom, wordsFrom]
    split
    · split
      · exact ih []
      · rw [ih, List.cons_append]
    · exact ih (d :: word)

/-- **Words.** A blank parts the words before it from those behind it. -/
theorem words_append_blank {c : Char} (hc : isSpace c = true) (front back : List Char) :
    words (front ++ c :: back) = words front ++ words back :=
  wordsFrom_append_blank hc front back []

/-- A blank at the start of a text parts no words. -/
theorem words_cons_blank {c : Char} (hc : isSpace c = true) (text : List Char) :
    words (c :: text) = words text :=
  words_append_blank hc [] text

/-- Nor does a blank at its end. -/
theorem words_concat_blank {c : Char} (hc : isSpace c = true) (text : List Char) :
    words (text ++ [c]) = words text :=
  (words_append_blank hc text []).trans (List.append_nil _)

/-- What is not blank is one word. -/
theorem wordsFrom_of_inked {text : List Char} (h : ∀ c ∈ text, isSpace c = false) :
    ∀ word : List Char, word ++ text ≠ [] → wordsFrom word text = [word.reverse ++ text] := by
  induction text with
  | nil =>
    intro word hword
    rw [List.append_nil] at hword
    simp [wordsFrom, hword]
  | cons c text ih =>
    obtain ⟨hc, htext⟩ := List.forall_mem_cons.mp h
    intro word _
    rw [wordsFrom, hc, if_neg Bool.false_ne_true, ih htext _ (by simp)]
    simp

/-- A text without blanks is its only word. -/
theorem words_of_inked {text : List Char} (h : ∀ c ∈ text, isSpace c = false) (hne : text ≠ []) :
    words text = [text] :=
  wordsFrom_of_inked h [] hne

/-- Blanks at the start of a text part no words. -/
theorem words_blanks_append {blanks : List Char} (h : ∀ c ∈ blanks, isSpace c = true)
    (text : List Char) : words (blanks ++ text) = words text := by
  induction blanks with
  | nil => rfl
  | cons c blanks ih =>
    obtain ⟨hc, hblanks⟩ := List.forall_mem_cons.mp h
    rw [List.cons_append, words_cons_blank hc, ih hblanks]

/-- Trimming takes no words away. -/
theorem words_trimStart (text : List Char) : words (trimStart text) = words text := by
  have hlead : ∀ c ∈ text.takeWhile isSpace, isSpace c = true :=
    fun c hc => List.mem_takeWhile_imp hc
  rw [trimStart, ← words_blanks_append hlead, List.takeWhile_append_dropWhile]

/-- Blanks have no words. -/
theorem words_of_blanks {blanks : List Char} (h : ∀ c ∈ blanks, isSpace c = true) :
    words blanks = [] := by
  have hnone := words_blanks_append h []
  rwa [List.append_nil] at hnone

/-- Blanks at the end of a text part no words either. -/
theorem words_append_blanks {blanks : List Char} (h : ∀ c ∈ blanks, isSpace c = true)
    (text : List Char) : words (text ++ blanks) = words text := by
  cases blanks with
  | nil => rw [List.append_nil]
  | cons c blanks =>
    obtain ⟨hc, hblanks⟩ := List.forall_mem_cons.mp h
    rw [words_append_blank hc, words_of_blanks hblanks, List.append_nil]

/-- A word that is being read, or that is still to come, is not empty. -/
theorem wordsFrom_eq_cons (text : List Char) :
    ∀ word : List Char, word ≠ [] ∨ isBlank text = false →
      ∃ first others, first ≠ [] ∧ wordsFrom word text = first :: others := by
  -- The induction is on what is still to be read; a blank either ends the word or stands in front
  -- of the first one.
  induction text with
  | nil =>
    intro word hword
    have hword : word ≠ [] := hword.resolve_right (by simp [isBlank])
    exact ⟨word.reverse, [], by simpa using hword, by simp [wordsFrom, hword]⟩
  | cons c text ih =>
    intro word hword
    rw [wordsFrom]
    by_cases hc : isSpace c = true
    · rw [if_pos hc]
      by_cases hempty : word = []
      · subst hempty
        have hblank : isBlank text = false := by
          have h := hword.resolve_left (by simp)
          simpa [isBlank, hc] using h
        exact ih [] (.inr hblank)
      · rw [if_neg (by simpa using hempty)]
        exact ⟨word.reverse, wordsFrom [] text, by simpa using hempty, rfl⟩
    · rw [if_neg hc]
      exact ih (c :: word) (.inl (by simp))

/-- Where there are no words, everything is blank. -/
theorem isSpace_of_words_eq_nil {text : List Char} (h : words text = []) :
    ∀ c ∈ text, isSpace c = true := by
  by_contra hinked
  have hblank : isBlank text = false := by simpa [isBlank] using hinked
  obtain ⟨first, others, -, hwords⟩ := wordsFrom_eq_cons text [] (.inr hblank)
  rw [words, hwords] at h
  contradiction

/-- The first word stands behind blanks, and a blank follows it or the end. -/
theorem exists_of_words_eq_cons {text word : List Char} {others : List (List Char)}
    (h : words text = word :: others) :
    ∃ lead rest, (∀ c ∈ lead, isSpace c = true) ∧ text = lead ++ (word ++ rest) ∧
      words rest = others ∧ ∀ c, rest.head? = some c → isSpace c = true := by
  induction text with
  | nil => contradiction
  | cons c text ih =>
    by_cases hc : isSpace c = true
    · rw [words_cons_blank hc] at h
      obtain ⟨lead, rest, hlead, rfl, hrest, hblank⟩ := ih h
      exact ⟨c :: lead, rest, List.forall_mem_cons.mpr ⟨hc, hlead⟩, rfl, hrest, hblank⟩
    · -- The word reaches up to the first blank.
      have hinked : ∀ d ∈ c :: text.takeWhile (!isSpace ·), isSpace d = false := by
        refine List.forall_mem_cons.mpr ⟨Bool.eq_false_iff.mpr hc, fun d hd => ?_⟩
        simpa using List.mem_takeWhile_imp hd
      have hword := words_of_inked hinked (List.cons_ne_nil _ _)
      have htext : text = text.takeWhile (!isSpace ·) ++ text.dropWhile (!isSpace ·) :=
        List.takeWhile_append_dropWhile.symm
      have hhead := List.head?_dropWhile_not (!isSpace ·) text
      cases hrest : text.dropWhile (!isSpace ·) with
      | nil =>
        rw [hrest, List.append_nil] at htext
        rw [← htext] at hword
        obtain ⟨rfl, rfl⟩ := List.cons.inj (hword.symm.trans h)
        exact ⟨[], [], by simp, by simp, rfl, by simp⟩
      | cons d back =>
        rw [hrest] at htext hhead
        have hd : isSpace d = true := by simpa using hhead
        rw [htext, ← List.cons_append, words_append_blank hd, hword] at h
        obtain ⟨rfl, rfl⟩ := List.cons.inj h
        refine ⟨[], d :: back, by simp, congrArg (c :: ·) htext, words_cons_blank hd back, ?_⟩
        rintro _ ⟨⟩
        exact hd

/-- What is read as a word is not empty and holds no blank. -/
theorem inked_of_mem_wordsFrom (text : List Char) :
    ∀ word : List Char, (∀ c ∈ word, isSpace c = false) →
      ∀ found ∈ wordsFrom word text, found ≠ [] ∧ ∀ c ∈ found, isSpace c = false := by
  -- The word that is being read is found where it is left off, unless it is empty.
  have hleft {word : List Char} (hword : ∀ c ∈ word, isSpace c = false)
      (hne : ¬word.isEmpty = true) :
      word.reverse ≠ [] ∧ ∀ c ∈ word.reverse, isSpace c = false :=
    ⟨by simpa using hne, fun c hc => hword c (List.mem_reverse.mp hc)⟩
  induction text with
  | nil =>
    intro word hword found hfound
    rw [wordsFrom] at hfound
    split at hfound
    · contradiction
    · rename_i hne
      exact List.mem_singleton.mp hfound ▸ hleft hword hne
  | cons d text ih =>
    have hnone : ∀ c ∈ ([] : List Char), isSpace c = false := fun c hc => by contradiction
    intro word hword found hfound
    rw [wordsFrom] at hfound
    split at hfound
    · split at hfound
      · exact ih [] hnone found hfound
      · rename_i hne
        rcases List.mem_cons.mp hfound with rfl | hfound
        · exact hleft hword hne
        · exact ih [] hnone found hfound
    · rename_i hd
      exact ih (d :: word) (List.forall_mem_cons.mpr ⟨Bool.eq_false_iff.mpr hd, hword⟩) found hfound

/-- A word is not empty and holds no blank. -/
theorem inked_of_mem_words {text word : List Char} (h : word ∈ words text) :
    word ≠ [] ∧ ∀ c ∈ word, isSpace c = false :=
  inked_of_mem_wordsFrom text [] (fun c hc => by contradiction) word h

/-! ## Joined parts -/

theorem join_singleton (separator part : List Char) : join separator [part] = part :=
  List.intercalate_singleton

/-- Each part but the first stands behind a separator. -/
theorem join_eq_flatMap (separator part : List Char) (others : List (List Char)) :
    join separator (part :: others) = part ++ others.flatMap fun other => separator ++ other := by
  induction others generalizing part with
  | nil => rw [join_singleton, List.flatMap_nil, List.append_nil]
  | cons next others ih =>
    rw [join, List.intercalate_cons_cons, ← join, ih next, List.flatMap_cons]
    simp only [List.append_assoc]

/-- The first part stands before the others, with the separator between them. -/
theorem join_cons {separator part : List Char} {others : List (List Char)} (h : others ≠ []) :
    join separator (part :: others) = part ++ (separator ++ join separator others) := by
  obtain ⟨next, others, rfl⟩ := List.exists_cons_of_ne_nil h
  rw [join_eq_flatMap, join_eq_flatMap, List.flatMap_cons, List.append_assoc]

/-- Parts and further parts are joined by one more separator. -/
theorem join_append_join {separator : List Char} {parts others : List (List Char)}
    (hparts : parts ≠ []) (hothers : others ≠ []) :
    join separator (parts ++ others) =
      join separator parts ++ (separator ++ join separator others) := by
  obtain ⟨part, parts, rfl⟩ := List.exists_cons_of_ne_nil hparts
  obtain ⟨other, others, rfl⟩ := List.exists_cons_of_ne_nil hothers
  simp only [List.cons_append, join_eq_flatMap, List.flatMap_append, List.flatMap_cons,
    List.append_assoc]

/-- Every character of joined parts is one of a part or of the separator. -/
theorem mem_join {separator : List Char} {parts : List (List Char)} {c : Char}
    (h : c ∈ join separator parts) : c ∈ separator ∨ ∃ part ∈ parts, c ∈ part := by
  induction parts with
  | nil => contradiction
  | cons part parts ih =>
    by_cases hrest : parts = []
    · subst hrest
      rw [join_singleton] at h
      exact .inr ⟨part, List.mem_cons_self, h⟩
    · rw [join_cons hrest, List.mem_append, List.mem_append] at h
      rcases h with h | h | h
      · exact .inr ⟨part, List.mem_cons_self, h⟩
      · exact .inl h
      · rcases ih h with h | ⟨other, hother, hc⟩
        · exact .inl h
        · exact .inr ⟨other, List.mem_cons_of_mem _ hother, hc⟩

/-! ## Squeezing -/

/-- A text that is not blank has something left when its blanks are squeezed. -/
theorem squeeze_isEmpty {text : List Char} (h : isBlank text = false) :
    (squeeze text).isEmpty = false := by
  obtain ⟨first, others, hfirst, hwords⟩ := wordsFrom_eq_cons text [] (.inr h)
  rw [squeeze, words, hwords]
  cases others with
  | nil => simpa using hfirst
  | cons second others => simp [List.intercalate_cons_cons, hfirst]

/-- A blank text has not. -/
theorem squeeze_of_blank {text : List Char} (h : isBlank text = true) : squeeze text = [] := by
  rw [squeeze, words_of_blanks (List.all_eq_true.mp h)]
  rfl

/-- A blank at the start of a text is squeezed away. -/
theorem squeeze_cons_blank (text : List Char) : squeeze (' ' :: text) = squeeze text := by
  rw [squeeze, words_cons_blank (by decide), squeeze]

/-- Blanks around a text are squeezed away. -/
theorem squeeze_padded (text : List Char) : squeeze (' ' :: (text ++ [' '])) = squeeze text := by
  rw [squeeze_cons_blank, squeeze, words_concat_blank (by decide), squeeze]

/-- The only blanks of a squeezed text are those between its words. -/
theorem eq_blank_of_mem_squeeze {text : List Char} {c : Char} (h : c ∈ squeeze text)
    (hc : isSpace c = true) : c = ' ' := by
  rcases mem_join h with hblank | ⟨word, hword, hmem⟩
  · exact List.mem_singleton.mp hblank
  · rw [(inked_of_mem_words hword).2 c hmem] at hc
    contradiction

/-- A text of one word is squeezed. -/
theorem squeeze_of_inked {text : List Char} (h : ∀ c ∈ text, isSpace c = false) :
    squeeze text = text := by
  cases text with
  | nil => rfl
  | cons c text =>
    rw [squeeze, words_of_inked h (List.cons_ne_nil c text)]
    exact List.intercalate_singleton

/-- A squeezed text that holds anything has words. -/
theorem words_ne_nil {text : List Char} (h : squeeze text = text) (hne : text ≠ []) :
    words text ≠ [] := by
  intro hwords
  rw [squeeze, hwords] at h
  exact hne h.symm

/-- Squeezed texts with a blank between them make a squeezed text. -/
theorem squeeze_append_blank {front back : List Char} (hfront : squeeze front = front)
    (hback : squeeze back = back) (hfrontNe : front ≠ []) (hbackNe : back ≠ []) :
    squeeze (front ++ ' ' :: back) = front ++ ' ' :: back := by
  calc
    squeeze (front ++ ' ' :: back) = join [' '] (words front ++ words back) := by
      rw [squeeze, words_append_blank (by decide)]
      rfl
    _ = join [' '] (words front) ++ ' ' :: join [' '] (words back) :=
      join_append_join (words_ne_nil hfront hfrontNe) (words_ne_nil hback hbackNe)
    _ = squeeze front ++ ' ' :: squeeze back := rfl
    _ = front ++ ' ' :: back := by rw [hfront, hback]

theorem join_ne_nil {separator : List Char} {parts : List (List Char)} (hparts : parts ≠ [])
    (h : ∀ part ∈ parts, part ≠ []) : join separator parts ≠ [] := by
  obtain ⟨first, others, rfl⟩ := List.exists_cons_of_ne_nil hparts
  have hfirst := h first List.mem_cons_self
  by_cases hothers : others = []
  · rw [hothers, join_singleton]
    exact hfirst
  · rw [join_cons hothers]
    simp [hfirst]

/-- **Squeezed parts.** Squeezed parts that are joined by blanks make a squeezed text. -/
theorem squeeze_join {parts : List (List Char)}
    (h : ∀ part ∈ parts, squeeze part = part ∧ part ≠ []) :
    squeeze (join [' '] parts) = join [' '] parts := by
  induction parts with
  | nil => rfl
  | cons part parts ih =>
    obtain ⟨⟨hpart, hne⟩, hothers⟩ := List.forall_mem_cons.mp h
    by_cases hrest : parts = []
    · rw [hrest, join_singleton, hpart]
    · rw [join_cons hrest]
      -- The parts that are left are not empty, as none of them is.
      exact squeeze_append_blank hpart (ih hothers) hne
        (join_ne_nil hrest fun other hother => (hothers other hother).2)

/-- What is squeezed stays as it is. -/
theorem squeeze_squeeze (text : List Char) : squeeze (squeeze text) = squeeze text := by
  refine squeeze_join fun word hword => ?_
  obtain ⟨hne, hinked⟩ := inked_of_mem_words hword
  exact ⟨squeeze_of_inked hinked, hne⟩

/-! ## Trimming -/

theorem length_join_le (word : List Char) (words : List (List Char)) :
    (join [' '] (word :: words)).length ≤ word.length + 1 + (join [' '] words).length := by
  by_cases hwords : words = []
  · rw [hwords, join_singleton]
    omega
  · rw [join_cons hwords, List.length_append, List.length_append, List.length_singleton]
    omega

theorem length_join_wordsFrom_le (text : List Char) :
    ∀ word : List Char,
      (join [' '] (wordsFrom word text)).length ≤ word.length + text.length := by
  induction text with
  | nil =>
    intro word
    rw [wordsFrom]
    split
    · exact Nat.zero_le _
    · rw [join_singleton, List.length_reverse]
      exact Nat.le_refl _
  | cons c text ih =>
    intro word
    -- A blank stands for the one between its words, or for none.
    have hnone := ih []
    rw [wordsFrom, List.length_cons]
    rw [List.length_nil] at hnone
    split
    · split
      · omega
      · have hjoin := length_join_le word.reverse (wordsFrom [] text)
        rw [List.length_reverse] at hjoin
        omega
    · have hword := ih (c :: word)
      rw [List.length_cons] at hword
      omega

/-- Squeezing makes no text longer. -/
theorem length_squeeze_le (text : List Char) : (squeeze text).length ≤ text.length :=
  (length_join_wordsFrom_le text []).trans (by simp)

/-- No blank stands at the start of a squeezed text: without it the text would be squeezed to the
same. -/
theorem isSpace_head_of_squeezed {text : List Char} {c : Char} (h : squeeze (c :: text) = c :: text) :
    isSpace c = false := by
  by_contra hc
  rw [Bool.not_eq_false] at hc
  have hlength := length_squeeze_le text
  rw [squeeze, words_cons_blank hc, ← squeeze] at h
  rw [h, List.length_cons] at hlength
  omega

/-- No blank stands at its end either. -/
theorem isSpace_last_of_squeezed {text : List Char} {c : Char}
    (h : squeeze (text ++ [c]) = text ++ [c]) : isSpace c = false := by
  by_contra hc
  rw [Bool.not_eq_false] at hc
  have hlength := length_squeeze_le text
  rw [squeeze, words_concat_blank hc, ← squeeze] at h
  rw [h, List.length_append, List.length_singleton] at hlength
  omega

/-- A text without the characters that are dropped keeps its end. -/
theorem dropEndWhile_of_forall {p : Char → Bool} {text : List Char} (h : ∀ c ∈ text, p c = false) :
    dropEndWhile p text = text := by
  refine List.rdropWhile_eq_self_iff.mpr fun hne => ?_
  rw [h _ (List.getLast_mem hne)]
  exact Bool.false_ne_true

/-- A squeezed text has no blanks around it. -/
theorem trim_of_squeezed {text : List Char} (h : squeeze text = text) : trim text = text := by
  have hstart : trimStart text = text := by
    cases text with
    | nil => rfl
    | cons c text => simp [trimStart, isSpace_head_of_squeezed h]
  rw [trim, hstart]
  rcases List.eq_nil_or_concat text with rfl | ⟨front, c, rfl⟩
  · rfl
  · rw [List.concat_eq_append] at h ⊢
    have hlast := isSpace_last_of_squeezed h
    exact List.rdropWhile_concat_neg _ _ _ (by simp [hlast])

/-- Trimming takes away a blank at the start of a text. -/
theorem trim_cons_blank {c : Char} (hc : isSpace c = true) (text : List Char) :
    trim (c :: text) = trim text := by
  rw [trim, trim, trimStart, trimStart, List.dropWhile_cons_of_pos hc]

/-- Trimming takes away the blanks in front of a text. -/
theorem trim_append_blanks {blanks : List Char} (h : ∀ c ∈ blanks, isSpace c = true)
    (text : List Char) : trim (blanks ++ text) = trim text := by
  rw [trim, trim, trimStart, trimStart, List.dropWhile_append_of_pos h]

/-- Trimming takes away a blank at the end of a text. -/
theorem trim_concat_blank {c : Char} (hc : isSpace c = true) (text : List Char) :
    trim (text ++ [c]) = trim text := by
  have hend (front : List Char) : trimEnd (front ++ [c]) = trimEnd front :=
    List.rdropWhile_concat_pos _ _ _ hc
  rw [trim, trim, trimStart, trimStart, List.dropWhile_append]
  split
  · rename_i hblank
    rw [List.isEmpty_iff.mp hblank, List.dropWhile_cons_of_pos hc]
    rfl
  · exact hend _

/-- Nothing is dropped in front of a character that is not of the kind. -/
theorem dropEndWhile_append {p : Char → Bool} {front : List Char} {c : Char}
    (hlast : front.getLast? = some c) (hc : p c = false) (rest : List Char) :
    dropEndWhile p (front ++ rest) = front ++ dropEndWhile p rest := by
  obtain ⟨others, rfl⟩ := List.getLast?_eq_some_iff.mp hlast
  have hfront : ((others ++ [c]).reverse).dropWhile p = (others ++ [c]).reverse := by
    rw [List.reverse_concat, List.dropWhile_cons_of_neg (by rw [hc]; decide)]
  rw [dropEndWhile, List.reverse_append, List.dropWhile_append, hfront]
  split
  · rename_i hnone
    rw [List.isEmpty_iff] at hnone
    rw [dropEndWhile, hnone, List.reverse_reverse, List.reverse_nil, List.append_nil]
  · rw [List.reverse_append, List.reverse_reverse]
    rfl

/-- What ends with another character is left as it is. -/
theorem dropEndWhile_of_getLast? {p : Char → Bool} {text : List Char} {c : Char}
    (hlast : text.getLast? = some c) (hc : p c = false) : dropEndWhile p text = text := by
  have hall := dropEndWhile_append hlast hc []
  rw [List.append_nil] at hall
  exact hall.trans (List.append_nil text)

/-- Trimming takes away nothing in front of a character that is no blank. -/
theorem trimEnd_append_inked {front : List Char} {c : Char} (hlast : front.getLast? = some c)
    (hc : isSpace c = false) (rest : List Char) :
    trimEnd (front ++ rest) = front ++ trimEnd rest :=
  dropEndWhile_append hlast hc rest

/-- Trimming leaves a text as it is that does not end with a blank. -/
theorem trimEnd_of_inked {text : List Char} {c : Char} (hlast : text.getLast? = some c)
    (hc : isSpace c = false) : trimEnd text = text :=
  dropEndWhile_of_getLast? hlast hc

/-- Trimming takes nothing away in front of a text that does not begin with a blank. -/
theorem trim_of_inked_start {text : List Char} (h : ∀ c, text.head? = some c → isSpace c = false) :
    trim text = trimEnd text := by
  cases text with
  | nil => rfl
  | cons c text =>
    have hc := h c rfl
    rw [trim, trimStart, List.dropWhile_cons_of_neg (by rw [hc]; decide)]

end CodeSurvey.Text
