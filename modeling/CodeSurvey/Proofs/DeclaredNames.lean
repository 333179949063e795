import CodeSurvey.Environment.Usage
import CodeSurvey.Proofs.Headers
import CodeSurvey.Proofs.LineViews
import CodeSurvey.Proofs.Squeezing

/-!
# Names that environment files declare

Which name a line declares is settled by the words before its first `=`, and what stands behind the
`=` tells nothing, up to the next line break of any kind. A line feed is not the only kind: what a
value holds behind a form feed or a line separator is read as a line of its own.

- `Assigns`: the text before `=` of a line that declares a name.
- `declaredName?_assignment`: the name that such a line declares.
- `declaredNames_append_break`: a line break parts the names before it from those behind it.
- `declaredNames_assignment`: what the value of a line adds to the names.
- `declaredNames_replaced`: one value in place of another.
-/

namespace CodeSurvey.Environment

open Text Pattern Extract

/-! ## Names of variables -/

/-- What the name of a variable begins with. -/
def nameStart : CharSet :=
  .union .letters (.char '_')

/-- What it goes on with. -/
def namePart : CharSet :=
  .unions [.letters, .range '0' '9', .char '_']

/-- Whether a text is the name of a variable. -/
def isVariableName : List Char → Bool
  | [] => false
  | c :: rest => nameStart.mem c && rest.all namePart.mem

variable {s t u v : State} {front name rest : List Char}

theorem mem_namePart (h : isVariableName name = true) : ∀ c ∈ name, namePart.mem c = true := by
  cases name with
  | nil => contradiction
  | cons first others =>
    rw [isVariableName, Bool.and_eq_true, List.all_eq_true] at h
    have hstart : nameStart.within namePart = true := by decide
    exact List.forall_mem_cons.mpr ⟨CharSet.mem_of_within hstart h.1, h.2⟩

/-- Nothing in a name is of a kind that no part of a name is. -/
theorem mem_eq_false_of_name (set : CharSet) (hset : namePart.within (.compl set) = true)
    (h : isVariableName name = true) {c : Char} (hc : c ∈ name) : set.mem c = false := by
  have hmem := CharSet.mem_of_within hset (mem_namePart h c hc)
  simpa [CharSet.mem] using hmem

theorem isSpace_of_name (h : isVariableName name = true) : ∀ c ∈ name, isSpace c = false :=
  fun _ hc => mem_eq_false_of_name .space (by decide) h hc

theorem name_ne_nil (h : isVariableName name = true) : name ≠ [] := by
  rintro rfl
  contradiction

/-- Names are what the pattern of a name reads. -/
theorem isVariableName_of_reads (h : variableName.Reads s t) :
    ∃ name, Passes s name t ∧ isVariableName name = true := by
  obtain ⟨_, ⟨c, rest, hafter, hstart, rfl⟩, hmany⟩ := h
  obtain ⟨others, hpasses⟩ := hmany.exists_passes
  have hparts : (many (one namePart)).throughout (·.within namePart) = true := by decide
  refine ⟨[c] ++ others, (Passes.pass hafter).trans hpasses, ?_⟩
  rw [List.singleton_append, isVariableName, Bool.and_eq_true, List.all_eq_true]
  exact ⟨hstart, fun d hd => mem_of_throughout hparts hmany hpasses hd⟩

theorem fits_variableName (h : isVariableName name = true) : variableName.Fits name := by
  cases name with
  | nil => contradiction
  | cons c others =>
    rw [isVariableName, Bool.and_eq_true, List.all_eq_true] at h
    have hfirst : (one nameStart).Fits [c] := fun s rest hafter =>
      ⟨s.pass c rest, ⟨c, rest, hafter, h.1, rfl⟩, Passes.pass hafter⟩
    exact StepFits.trans hfirst (fits_many h.2)

/-! ## Before the equals sign -/

/-- The text before `=` of a line that declares the name: the name alone, or behind `export`. -/
inductive Assigns : List Char → List Char → Prop
  | bare {name blanks : List Char} (hname : isVariableName name = true)
      (hblanks : ∀ c ∈ blanks, isSpace c = true) : Assigns (name ++ blanks) name
  | exported {gap name blanks : List Char} (hgap : gap ≠ [] ∧ ∀ c ∈ gap, isSpace c = true)
      (hname : isVariableName name = true) (hblanks : ∀ c ∈ blanks, isSpace c = true) :
      Assigns ("export".toList ++ (gap ++ (name ++ blanks))) name

/-- The name that a line declares, given what stands before its first `=`. -/
def nameBefore? (front : List Char) : Option (List Char) :=
  match words front with
  | [name] => if isVariableName name then some name else none
  | [mark, name] => if mark == "export".toList && isVariableName name then some name else none
  | _ => none

theorem words_name {blanks : List Char} (hname : isVariableName name = true)
    (hblanks : ∀ c ∈ blanks, isSpace c = true) : words (name ++ blanks) = [name] := by
  rw [words_append_blanks hblanks, words_of_inked (isSpace_of_name hname) (name_ne_nil hname)]

theorem nameBefore?_of_assigns (h : Assigns front name) : nameBefore? front = some name := by
  cases h with
  | bare hname hblanks =>
    rw [nameBefore?, words_name hname hblanks]
    exact if_pos hname
  | @exported gap name blanks hgap hname hblanks =>
    obtain ⟨c, gap, rfl⟩ := List.exists_cons_of_ne_nil hgap.1
    obtain ⟨hc, hgap⟩ := List.forall_mem_cons.mp hgap.2
    have hwords : words ("export".toList ++ (c :: gap ++ (name ++ blanks))) =
        ["export".toList, name] := by
      calc
        words ("export".toList ++ (c :: gap ++ (name ++ blanks)))
          = words "export".toList ++ words (gap ++ (name ++ blanks)) := words_append_blank hc _ _
        _ = words "export".toList ++ [name] := by
          rw [words_blanks_append hgap, words_name hname hblanks]
        _ = ["export".toList, name] := rfl
    rw [nameBefore?, hwords]
    simp [hname]

theorem assigns_of_nameBefore? (h : nameBefore? front = some name)
    (hstart : ∀ c, front.head? = some c → isSpace c = false) : Assigns front name := by
  -- No blank stands in front of the first word.
  have hfirst {word lead rest : List Char} (hlead : ∀ c ∈ lead, isSpace c = true)
      (hfront : front = lead ++ (word ++ rest)) : front = word ++ rest := by
    cases lead with
    | nil => exact hfront
    | cons c lead =>
      have hc := hstart c (by rw [hfront]; rfl)
      rw [hlead c List.mem_cons_self] at hc
      contradiction
  -- A single word is the name; of two words the first one is the mark.
  rw [nameBefore?] at h
  split at h
  · rename_i word hwords
    obtain ⟨lead, rest, hlead, hfront, hrest, -⟩ := exists_of_words_eq_cons hwords
    split at h
    · rename_i hname
      obtain rfl := Option.some.inj h
      rw [hfirst hlead hfront]
      exact .bare hname (isSpace_of_words_eq_nil hrest)
    · contradiction
  · rename_i mark word hwords
    obtain ⟨lead, rest, hlead, hfront, hrest, hblank⟩ := exists_of_words_eq_cons hwords
    obtain ⟨gap, others, hgap, rfl, hothers, -⟩ := exists_of_words_eq_cons hrest
    split at h
    · rename_i hboth
      rw [Bool.and_eq_true, beq_iff_eq] at hboth
      obtain ⟨rfl, hname⟩ := hboth
      obtain rfl := Option.some.inj h
      have hgapNe : gap ≠ [] := by
        rintro rfl
        obtain ⟨c, letters, rfl⟩ := List.exists_cons_of_ne_nil (name_ne_nil hname)
        have hc := hblank c rfl
        rw [isSpace_of_name hname c List.mem_cons_self] at hc
        contradiction
      rw [hfirst hlead hfront]
      exact .exported ⟨hgapNe, hgap⟩ hname (isSpace_of_words_eq_nil hothers)
    · contradiction
  · contradiction

/-- A comment declares nothing. -/
theorem Assigns.head?_ne (h : Assigns front name) (rest : List Char) :
    (front ++ rest).head? ≠ some '#' := by
  cases h with
  | bare hname =>
    obtain ⟨c, letters, rfl⟩ := List.exists_cons_of_ne_nil (name_ne_nil hname)
    have hc := mem_eq_false_of_name (.char '#') (by decide) hname List.mem_cons_self
    rintro ⟨⟩
    contradiction
  | exported =>
    rw [List.append_assoc]
    exact fun hhead => absurd (Option.some.inj hhead) (by decide)

/-- No `=` stands before the first one. -/
theorem Assigns.notMem (h : Assigns front name) : '=' ∉ front := by
  have hblank {text : List Char} (htext : ∀ c ∈ text, isSpace c = true) : '=' ∉ text :=
    fun hc => absurd (htext _ hc) (by decide)
  have hname {text : List Char} (htext : isVariableName text = true) : '=' ∉ text :=
    fun hc => absurd (mem_eq_false_of_name (.char '=') (by decide) htext hc) (by decide)
  cases h with
  | bare hvariable hblanks =>
    simp only [List.mem_append, hname hvariable, hblank hblanks, or_self, not_false_eq_true]
  | exported hgap hvariable hblanks =>
    have hexport : '=' ∉ "export".toList := by decide
    simp only [List.mem_append, hexport, hname hvariable, hblank hblanks, hblank hgap.2, or_self,
      not_false_eq_true]

/-! ## Readings of declarations -/

/-- The word that may stand before the name. -/
def exportMark : Pattern :=
  opt (lit "export" ++ spaces1)

/-- What stands before the name. -/
def declarationFront : Pattern :=
  textStart ++ exportMark

/-- What stands behind it. -/
def declarationTail : Pattern :=
  spaces ++ lit "="

theorem reads_declarationPattern : declarationPattern.Reads =
    (header declarationFront variableName declarationTail).Reads := by
  simp only [declarationPattern, keptName, header, declarationFront, exportMark, declarationTail,
    reads_seq, Relation.comp_assoc]

/-- Before the name stands nothing, or `export` and blanks. -/
theorem mark_cases (h : exportMark.Reads s u) : ∃ mark, Passes s mark u ∧
    (mark = [] ∨ ∃ gap, (gap ≠ [] ∧ ∀ c ∈ gap, isSpace c = true) ∧
      mark = "export".toList ++ gap) := by
  rcases reads_opt.mp h with rfl | ⟨w, hexport, hspaces⟩
  · exact ⟨[], Passes.refl u u.kept, .inl rfl⟩
  · obtain ⟨c, others, hgap⟩ := exists_cons_of_reads (by decide) hspaces
    have hblank : ∀ d ∈ c :: others, CharSet.space.mem d = true := fun d hd =>
      mem_of_throughout (by decide) hspaces hgap hd
    exact ⟨_, (passes_of_reads_lit hexport).trans hgap,
      .inr ⟨c :: others, ⟨List.cons_ne_nil c others, hblank⟩, rfl⟩⟩

/-- What is read before the first `=` assigns the name that is kept. -/
theorem assigns_of_parts (hfront : '=' ∉ front)
    (h : HeaderParts declarationFront variableName declarationTail ⟨[], front ++ '=' :: rest, 0, []⟩
      u v t) : ∃ name, Passes u name v ∧ Assigns front name := by
  obtain ⟨name, hname, hvariable⟩ := isVariableName_of_reads h.name
  obtain ⟨w, hspaces, hequals⟩ := h.tail
  obtain ⟨blanks, hblanks⟩ := hspaces.exists_passes
  have hblank : ∀ c ∈ blanks, CharSet.space.mem c = true := fun c hc =>
    mem_of_throughout (by decide) hspaces hblanks hc
  obtain ⟨_, ⟨-, rfl⟩, hoptional⟩ := h.front
  obtain ⟨mark, hmark, hforms⟩ := mark_cases hoptional
  have htext : front ++ '=' :: rest = mark ++ ((name ++ blanks) ++ '=' :: t.after) := by
    calc
      front ++ '=' :: rest = mark ++ (name ++ v.after) := by rw [← hname.after, ← hmark.after]
      _ = mark ++ (name ++ (blanks ++ w.after)) := by rw [← hblanks.after]
      _ = mark ++ ((name ++ blanks) ++ '=' :: t.after) := by
        rw [(passes_of_reads_lit hequals).after, List.append_assoc]
        rfl
  have hassigns : Assigns (mark ++ (name ++ blanks)) name := by
    rcases hforms with rfl | ⟨gap, hgap, rfl⟩
    · exact .bare hvariable hblank
    · rw [List.append_assoc]
      exact .exported hgap hvariable hblank
  have hsame : front = mark ++ (name ++ blanks) := by
    -- Both are what stands before the first equals sign.
    rw [← List.append_assoc] at htext
    have hbefore := congrArg (beforeFirst '=') htext
    rwa [beforeFirst_append_of_notMem hfront, beforeFirst_append_of_notMem hassigns.notMem,
      beforeFirst_cons_self, beforeFirst_cons_self, List.append_nil, List.append_nil] at hbefore
  exact ⟨name, hname, hsame ▸ hassigns⟩

/-- What assigns a name is read, whatever stands behind the `=`. -/
theorem Assigns.exists_reads (h : Assigns front name) (rest : List Char) :
    ∃ t, declarationPattern.Reads ⟨[], front ++ '=' :: rest, 0, []⟩ t := by
  have hname (hvariable : isVariableName name = true) : keptName.Fits name :=
    (fits_variableName hvariable).capture "name"
  have hspaces {blanks : List Char} (hblanks : ∀ c ∈ blanks, isSpace c = true) :
      spaces.Fits blanks := fits_many hblanks
  have hparts : ∃ mark blanks, front = mark ++ (name ++ blanks) ∧
      exportMark.Fits mark ∧ keptName.Fits name ∧ spaces.Fits blanks := by
    cases h with
    | bare hvariable hblanks =>
      have hnone : exportMark.Fits [] := fun s rest _ =>
        ⟨s, reads_opt.mpr (.inl rfl), Passes.refl s s.kept⟩
      exact ⟨[], _, rfl, hnone, hname hvariable, hspaces hblanks⟩
    | exported hgap hvariable hblanks =>
      have hexport : (lit "export" ++ spaces1).Fits ("export".toList ++ _) :=
        StepFits.trans (fits_lit "export") (fits_many1 hgap.1 hgap.2)
      refine ⟨_, _, (List.append_assoc _ _ _).symm, ?_, hname hvariable, hspaces hblanks⟩
      exact hexport.refine fun s t hreads => reads_opt.mpr (.inr hreads)
  obtain ⟨mark, blanks, rfl, hmark, hkept, hblanks⟩ := hparts
  have hfits := hmark.trans (hkept.trans (hblanks.trans (fits_lit "=")))
  have hafter : mark ++ (name ++ blanks) ++ '=' :: rest =
      mark ++ (name ++ (blanks ++ "=".toList)) ++ rest := by simp
  obtain ⟨t, hreads, -⟩ := hfits ⟨[], _, 0, []⟩ rest hafter
  have hstart : declarationPattern.Reads =
      (textStart ++ (exportMark ++ (keptName ++ (spaces ++ lit "=")))).Reads := by
    simp only [declarationPattern, exportMark, reads_seq, Relation.comp_assoc]
  exact ⟨t, hstart ▸ ⟨_, ⟨rfl, rfl⟩, hreads⟩⟩

/-- A match of a declaration keeps the name that is assigned before the first `=`. -/
theorem assigns_of_matchStart? (hfront : '=' ∉ front) {m : Match}
    (h : declarationPattern.matchStart? (front ++ '=' :: rest) = some m) :
    ∃ name, m.group? "name" = some name ∧ Assigns front name := by
  obtain ⟨t, hreads, rfl⟩ := exists_reads_of_matchHere? h
  rw [reads_declarationPattern, reads_header_iff] at hreads
  obtain ⟨u, v, hparts⟩ := hreads
  obtain ⟨name, hpasses, hassigns⟩ := assigns_of_parts hfront hparts
  obtain ⟨mark, hmark⟩ := hparts.front.exists_passes
  refine ⟨name, ?_, hassigns⟩
  rw [hparts.group? (by decide) (by decide)]
  exact congrArg some (((within_start _).passes hmark).between hpasses)

/-! ## Lines that assign -/

/-- Trimming reaches no further than to the `=`. -/
theorem trim_assignment (front value : List Char) :
    trim (front ++ '=' :: value) = trimStart front ++ '=' :: trimEnd value := by
  have hstart : trimStart (front ++ '=' :: value) = trimStart front ++ '=' :: value := by
    rw [trimStart, trimStart, List.dropWhile_append, List.dropWhile_cons_of_neg (by decide)]
    split
    · rename_i hblank
      rw [List.isEmpty_iff.mp hblank, List.nil_append]
    · rfl
  have hlast : (trimStart front ++ ['=']).getLast? = some '=' := List.getLast?_concat
  have hend := trimEnd_append_inked hlast (by decide) value
  rwa [List.append_assoc, List.append_assoc, List.singleton_append, List.singleton_append,
    ← hstart] at hend

/-- **Names before `=`.** The words before its first `=` settle which name a line declares. -/
theorem declaredName?_assignment (hfront : '=' ∉ front) (value : List Char) :
    declaredName? (front ++ '=' :: value) = (nameBefore? front).map String.ofList := by
  have hwords : nameBefore? front = nameBefore? (trimStart front) := by
    rw [nameBefore?, nameBefore?, words_trimStart]
  have hbody : '=' ∉ trimStart front := fun hc => hfront ((List.dropWhile_suffix isSpace).mem hc)
  have hinked : ∀ c, (trimStart front).head? = some c → isSpace c = false := by
    intro c hc
    have hhead := List.head?_dropWhile_not isSpace front
    rwa [← trimStart, hc] at hhead
  rw [declaredName?, trim_assignment, hwords]
  cases hname : nameBefore? (trimStart front) with
  | none =>
    -- A match would keep a name that stands there.
    cases hmatch : declarationPattern.matchStart? (trimStart front ++ '=' :: trimEnd value) with
    | none => split <;> rfl
    | some m =>
      obtain ⟨name, -, hassigns⟩ := assigns_of_matchStart? hbody hmatch
      rw [nameBefore?_of_assigns hassigns] at hname
      contradiction
  | some name =>
    have hassigns := assigns_of_nameBefore? hname hinked
    obtain ⟨t, hreads⟩ := hassigns.exists_reads (trimEnd value)
    obtain ⟨m, hm⟩ := Option.isSome_iff_exists.mp (isSome_matchHere? _ (by decide) hreads)
    obtain ⟨kept, hkept, hassigns'⟩ := assigns_of_matchStart? hbody hm
    obtain rfl : kept = name :=
      Option.some.inj ((nameBefore?_of_assigns hassigns').symm.trans hname)
    have hcomment := hassigns.head?_ne ('=' :: trimEnd value)
    rw [if_neg (by simpa using hcomment), matchStart?, hm]
    simp [hkept]

/-! ## Line breaks -/

/-- A break of any kind ends the line that is being read. A carriage return and a line feed are two
breaks as good as one: the line between them would be empty and declare nothing. -/
theorem filterMap_breakLinesFrom_cons (line : List Char) (c : Char) (rest : List Char) :
    (breakLinesFrom line (c :: rest)).filterMap declaredName? =
      if isLineBreak c then (declaredName? line.reverse).toList ++ declaredNames rest
      else (breakLinesFrom (c :: line) rest).filterMap declaredName? := by
  have hcons (lines : List (List Char)) : (line.reverse :: lines).filterMap declaredName? =
      (declaredName? line.reverse).toList ++ lines.filterMap declaredName? := by
    rw [List.filterMap_cons]
    cases declaredName? line.reverse <;> rfl
  by_cases hboth : c = '\r' ∧ ∃ others, rest = '\n' :: others
  · obtain ⟨rfl, others, rfl⟩ := hboth
    have hempty : declaredNames ('\n' :: others) = declaredNames others := rfl
    rw [breakLinesFrom, hcons, if_pos (by decide), hempty]
    rfl
  · rw [breakLinesFrom]
    · split
      · exact hcons _
      · rfl
    · rintro others rfl rfl
      exact hboth ⟨rfl, others, rfl⟩

theorem filterMap_breakLinesFrom_nil (line : List Char) :
    (breakLinesFrom line []).filterMap declaredName? = (declaredName? line.reverse).toList := by
  cases line with
  | nil => rfl
  | cons c line =>
    rw [breakLinesFrom, if_neg (by simp), List.filterMap_cons]
    cases declaredName? (c :: line).reverse <;> rfl

theorem filterMap_breakLinesFrom_append {c : Char} (hc : isLineBreak c = true)
    (front back : List Char) :
    ∀ line : List Char, (breakLinesFrom line (front ++ c :: back)).filterMap declaredName? =
      (breakLinesFrom line front).filterMap declaredName? ++ declaredNames back := by
  induction front with
  | nil =>
    intro line
    rw [List.nil_append, filterMap_breakLinesFrom_cons, if_pos hc, filterMap_breakLinesFrom_nil]
  | cons d front ih =>
    intro line
    rw [List.cons_append, filterMap_breakLinesFrom_cons, filterMap_breakLinesFrom_cons]
    split
    · rw [declaredNames, breakLines, ih [], List.append_assoc]
      rfl
    · exact ih (d :: line)

/-- **Line breaks.** A line break of any kind parts the names before it from those behind it. -/
theorem declaredNames_append_break {c : Char} (hc : isLineBreak c = true) (front back : List Char) :
    declaredNames (front ++ c :: back) = declaredNames front ++ declaredNames back :=
  filterMap_breakLinesFrom_append hc front back []

/-- Each of joined lines declares its names. -/
theorem declaredNames_join (parts : List (List Char)) :
    declaredNames (join ['\n'] parts) = parts.flatMap declaredNames := by
  induction parts with
  | nil => rfl
  | cons part parts ih =>
    rw [List.flatMap_cons, ← ih]
    by_cases hparts : parts = []
    · subst hparts
      rw [join_singleton]
      exact (List.append_nil _).symm
    · rw [join_cons hparts]
      exact declaredNames_append_break (by decide) part _

/-! ## Values -/

variable {key value value' : List Char}

/-- What no break parts is one line. -/
theorem filterMap_breakLinesFrom_unbroken (h : ∀ c ∈ value, isLineBreak c = false) :
    ∀ line : List Char, (breakLinesFrom line value).filterMap declaredName? =
      (declaredName? (line.reverse ++ value)).toList := by
  induction value with
  | nil =>
    intro line
    rw [filterMap_breakLinesFrom_nil, List.append_nil]
  | cons c value ih =>
    obtain ⟨hc, hvalue⟩ := List.forall_mem_cons.mp h
    intro line
    rw [filterMap_breakLinesFrom_cons, if_neg (by rw [hc]; decide), ih hvalue, List.reverse_cons,
      List.append_assoc, List.singleton_append]

/-- A value without breaks makes no difference. The induction is on what stands before the `=`,
which may hold breaks itself; `line` is the part of it behind the last break. -/
theorem filterMap_breakLinesFrom_value (hkey : '=' ∉ key)
    (h : ∀ c ∈ value, isLineBreak c = false) :
    ∀ line : List Char, '=' ∉ line →
      (breakLinesFrom line (key ++ '=' :: value)).filterMap declaredName? =
        (breakLinesFrom line (key ++ ['='])).filterMap declaredName? := by
  induction key with
  | nil =>
    intro line hline
    have hunbroken {text : List Char} (htext : ∀ c ∈ text, isLineBreak c = false) :
        (breakLinesFrom line ('=' :: text)).filterMap declaredName? =
          ((nameBefore? line.reverse).map String.ofList).toList := by
      have hall : ∀ c ∈ '=' :: text, isLineBreak c = false :=
        List.forall_mem_cons.mpr ⟨by decide, htext⟩
      rw [filterMap_breakLinesFrom_unbroken hall,
        declaredName?_assignment fun hc => hline (List.mem_reverse.mp hc)]
    exact (hunbroken h).trans (hunbroken fun c hc => by contradiction).symm
  | cons d key ih =>
    obtain ⟨hd, hrest⟩ := not_or.mp (mt List.mem_cons.mpr hkey)
    intro line hline
    rw [List.cons_append, List.cons_append, filterMap_breakLinesFrom_cons,
      filterMap_breakLinesFrom_cons]
    split
    · exact congrArg _ (ih hrest [] List.not_mem_nil)
    · exact ih hrest (d :: line) (by simp [hd, hline])

/-- What stands behind the first line break of a value. -/
def behindBreak (value : List Char) : List Char :=
  (value.dropWhile (!isLineBreak ·)).tail

theorem behindBreak_of_unbroken (h : ∀ c ∈ value, isLineBreak c = false) :
    behindBreak value = [] := by
  have hall : ∀ c ∈ value, (!isLineBreak c) = true := fun c hc => by rw [h c hc]; rfl
  rw [behindBreak, List.dropWhile_eq_nil_iff.mpr hall, List.tail_nil]

/-- **Values.** A value adds the names that are declared behind its first line break, and nothing
else. -/
theorem declaredNames_assignment (hkey : '=' ∉ key) (value : List Char) :
    declaredNames (key ++ '=' :: value) =
      declaredNames (key ++ ['=']) ++ declaredNames (behindBreak value) := by
  have hfirst : ∀ c ∈ value.takeWhile (!isLineBreak ·), isLineBreak c = false :=
    fun c hc => by simpa using List.mem_takeWhile_imp hc
  have hparts : value.takeWhile (!isLineBreak ·) ++ value.dropWhile (!isLineBreak ·) = value :=
    List.takeWhile_append_dropWhile
  have hhead := List.head?_dropWhile_not (!isLineBreak ·) value
  have hunbroken := filterMap_breakLinesFrom_value hkey hfirst [] List.not_mem_nil
  rw [behindBreak]
  cases hrest : value.dropWhile (!isLineBreak ·) with
  | nil =>
    rw [hrest, List.append_nil] at hparts
    rw [hparts] at hunbroken
    exact hunbroken.trans (List.append_nil _).symm
  | cons c rest =>
    rw [hrest] at hparts hhead
    have hc : isLineBreak c = true := by simpa using hhead
    rw [← hparts, ← List.cons_append, ← List.append_assoc, declaredNames_append_break hc]
    exact congrArg (· ++ declaredNames rest) hunbroken

/-- An environment file, one line of which has the value. -/
def fileWith (before after : List (List Char)) (key value : List Char) : List Char :=
  join ['\n'] (before ++ (key ++ '=' :: value) :: after)

theorem declaredNames_fileWith (before after : List (List Char)) (hkey : '=' ∉ key)
    (value : List Char) :
    declaredNames (fileWith before after key value) =
      before.flatMap declaredNames ++ declaredNames (key ++ ['=']) ++
        declaredNames (behindBreak value) ++ after.flatMap declaredNames := by
  rw [fileWith, declaredNames_join, List.flatMap_append, List.flatMap_cons,
    declaredNames_assignment hkey]
  simp only [List.append_assoc]

/-- What stands before the `=`, if it is one line, declares the name that its words tell. -/
theorem declaredNames_key (hkey : '=' ∉ key) (h : ∀ c ∈ key, isLineBreak c = false) :
    declaredNames (key ++ ['=']) = ((nameBefore? key).map String.ofList).toList := by
  have hline : ∀ c ∈ key ++ ['='], isLineBreak c = false :=
    List.forall_mem_append.mpr ⟨h, List.forall_mem_singleton.mpr (by decide)⟩
  rw [declaredNames, breakLines, filterMap_breakLinesFrom_unbroken hline, List.reverse_nil,
    List.nil_append, declaredName?_assignment hkey]

/-- **One value in place of another.** What a line holds behind its first `=` makes no difference to
the names as long as no line break of any kind stands in it: the line declares the name that the
words before the `=` tell, if they tell one. If breaks stand in the values, they make no difference
just if the same names are declared behind the first one of each. -/
theorem declaredNames_replaced (before after : List (List Char)) (hkey : '=' ∉ key)
    (value value' : List Char) :
    ((∀ c ∈ value ++ value', isLineBreak c = false) →
      declaredNames (fileWith before after key value) =
        declaredNames (fileWith before after key value')) ∧
    ((∀ c ∈ key ++ value, isLineBreak c = false) →
      declaredNames (fileWith before after key value) =
        before.flatMap declaredNames ++ ((nameBefore? key).map String.ofList).toList ++
          after.flatMap declaredNames) ∧
    (declaredNames (fileWith before after key value) =
        declaredNames (fileWith before after key value') ↔
      declaredNames (behindBreak value) = declaredNames (behindBreak value')) := by
  have hnone : declaredNames [] = [] := rfl
  have hiff : declaredNames (fileWith before after key value) =
        declaredNames (fileWith before after key value') ↔
      declaredNames (behindBreak value) = declaredNames (behindBreak value') := by
    rw [declaredNames_fileWith before after hkey, declaredNames_fileWith before after hkey,
      List.append_left_inj, List.append_right_inj]
  refine ⟨fun h => hiff.mpr ?_, fun h => ?_, hiff⟩
  · obtain ⟨hvalue, hvalue'⟩ := List.forall_mem_append.mp h
    rw [behindBreak_of_unbroken hvalue, behindBreak_of_unbroken hvalue']
  · obtain ⟨hline, hvalue⟩ := List.forall_mem_append.mp h
    rw [declaredNames_fileWith before after hkey, behindBreak_of_unbroken hvalue, hnone,
      List.append_nil, declaredNames_key hkey hline]

/-- A secret in place of another one, between lines of all kinds. -/
theorem declaredNames_replaced_secret :
    '=' ∉ "export TOKEN ".toList ∧
      declaredNames (fileWith ["# A=1".toList] ["B = 2".toList] "export TOKEN ".toList
        "abc#=d".toList) =
      declaredNames (fileWith ["# A=1".toList] ["B = 2".toList] "export TOKEN ".toList
        "\"x\"".toList) ∧
      declaredNames (fileWith ["# A=1".toList] ["B = 2".toList] "export TOKEN ".toList
        "abc#=d".toList) = ["TOKEN", "B"] := by
  have hkey : '=' ∉ "export TOKEN ".toList := by decide
  have hreplaced := declaredNames_replaced ["# A=1".toList] ["B = 2".toList] hkey "abc#=d".toList
    "\"x\"".toList
  exact ⟨hkey, hreplaced.1 (by decide), (hreplaced.2.1 (by decide)).trans (by decide +kernel)⟩

/-- A line separator in a value, which is no line feed, lets a part of the value out. -/
theorem declaredNames_lineSeparator :
    ¬ ∀ (before after : List (List Char)) (key value value' : List Char), '=' ∉ key →
      '\n' ∉ value → '\n' ∉ value' → declaredNames (fileWith before after key value) =
        declaredNames (fileWith before after key value') := by
  intro h
  have hsame := h [] [] "TOKEN".toList [] "abc\u2028PASSWORD=def".toList (by decide) (by decide)
    (by decide)
  have hdiffer : declaredNames (fileWith [] [] "TOKEN".toList []) ≠
      declaredNames (fileWith [] [] "TOKEN".toList "abc\u2028PASSWORD=def".toList) := by
    decide +kernel
  exact hdiffer hsame

end CodeSurvey.Environment
