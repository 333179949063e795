import CodeSurvey.Proofs.Matches
import CodeSurvey.Proofs.Places

/-!
# Replacing matches part by part

A pattern that reads something is sought from place to place, and each of its matches is replaced.
Where a text is made up of parts, what becomes of it can be told part by part: a character at which
the pattern is refused is kept, and a part that it prefers to read is replaced as a whole.

- `foundBehind`, `replacedBehind`: the matches behind a place, and what becomes of the text there.
- `Rewrites`: what a part of a text becomes in front of another.
- `Rewrites.append`: parts that stand one behind the other.
- `rewrites_of_notMem`, `rewrites_named`: parts that are kept, and parts that are replaced by what
  is made of a text in them.
- `replaceAll_of_rewrites`: a whole text.
-/

namespace CodeSurvey.Pattern

variable {p : Pattern} {f : Match → List Char} {before rest header : List Char} {c : Char}
  {captures : List Capture}

/-! ## Matches behind a place -/

/-- The matches in what stands behind a place, in front of which stands `before` (last first). -/
def foundBehind (p : Pattern) (before after : List Char) : List Match :=
  p.findAllFrom (before.reverse ++ after) (2 * after.length + 2)
    ⟨before, after, before.length, []⟩ false

theorem within_behind (before after : List Char) :
    Within (before.reverse ++ after) ⟨before, after, before.length, []⟩ :=
  ⟨rfl, rfl⟩

theorem foundBehind_nil (hsurely : p.surely (fun _ => true) = true) (before : List Char) :
    p.foundBehind before [] = [] := by
  have hnone : p.searchFrom (before.reverse ++ []) [] before before.length false = none := by
    rw [searchFrom, matchHere?, refuses_nil hsurely]
    rfl
  rw [foundBehind, findAllFrom, hnone]

/-- Where the pattern does not match, the same matches are found one character further on. -/
theorem foundBehind_of_none (hsurely : p.surely (fun _ => true) = true)
    (h : p.matchHere? (before.reverse ++ c :: rest) ⟨before, c :: rest, before.length, []⟩ false =
      none) :
    p.foundBehind before (c :: rest) = p.foundBehind (c :: before) rest := by
  have hsubject : (c :: before).reverse ++ rest = before.reverse ++ c :: rest := by simp
  have hhere := within_behind before (c :: rest)
  have hnext := within_behind (c :: before) rest
  unfold foundBehind
  rw [hsubject] at hnext ⊢
  have hsame : p.searchFrom (before.reverse ++ c :: rest) (c :: rest) before before.length false =
      p.searchFrom (before.reverse ++ c :: rest) rest (c :: before) (before.length + 1) false := by
    rw [searchFrom, h]
  cases hsearch : p.searchFrom (before.reverse ++ c :: rest) rest (c :: before)
      (before.length + 1) false with
  | none =>
    -- Nothing is found from either place.
    rw [findAllFrom, findAllFrom]
    simp only [List.length_cons, hsame, hsearch]
  | some m =>
    -- Both searches find this match, and both go on where it stops.
    obtain ⟨t, ht, hkept, hoffset, -, hfound⟩ :=
      exists_findAllFrom_cons hsurely hhere (hsame.trans hsearch)
    obtain ⟨u, hu, hkept', hoffset', hless', hfound'⟩ :=
      exists_findAllFrom_cons hsurely hnext hsearch
    obtain rfl : t = u := ht.eq hu (hoffset.trans hoffset'.symm) (hkept.trans hkept'.symm)
    have hrest : t.after.length < rest.length := hless'
    rw [hfound, hfound', List.length_cons]
    congr 1
    apply findAllFrom_eq_of_fuel hsurely ht
    · omega
    · omega

/-- Behind a character at which the pattern is refused the same matches are found. -/
theorem foundBehind_of_refuses (hsurely : p.surely (fun _ => true) = true)
    (h : p.Refuses (c :: rest)) :
    p.foundBehind before (c :: rest) = p.foundBehind (c :: before) rest := by
  apply foundBehind_of_none hsurely
  rw [matchHere?, h]
  rfl

/-- Behind a text in which the pattern is refused wherever it is sought the same matches are
found. -/
theorem foundBehind_passed (hsurely : p.surely (fun _ => true) = true) {text : List Char}
    (h : ∀ c ∈ text, ∀ others, p.Refuses (c :: others)) :
    p.foundBehind before (text ++ rest) = p.foundBehind (text.reverse ++ before) rest := by
  induction text generalizing before with
  | nil => rfl
  | cons c text ih =>
    obtain ⟨hc, htext⟩ := List.forall_mem_cons.mp h
    rw [List.cons_append, foundBehind_of_refuses hsurely (hc _), ih htext, List.reverse_cons,
      List.append_assoc, List.singleton_append]

/-- Where the pattern matches, this match comes first, and the others are found behind what it
reads. -/
theorem exists_foundBehind_cons {after : List Char} {m : Match}
    (hsurely : p.surely (fun _ => true) = true)
    (h : p.matchHere? (before.reverse ++ after) ⟨before, after, before.length, []⟩ false = some m) :
    ∃ read rest, after = read ++ rest ∧ read ≠ [] ∧ m.stop = before.length + read.length ∧
      p.foundBehind before after = m :: p.foundBehind (read.reverse ++ before) rest := by
  have hhere := within_behind before after
  have hsearch : p.searchFrom (before.reverse ++ after) after before before.length false =
      some m := by
    cases after <;> rw [searchFrom, h]
  obtain ⟨t, ht, hkept, hoffset, hless, hfound⟩ := exists_findAllFrom_cons hsurely hhere hsearch
  have hmoves := (matches_of_searchFrom hhere hsearch).1.start_lt_stop hsurely
  have hfrom := (matches_of_searchFrom hhere hsearch).2
  have hpasses := hhere.passes_between ht (show before.length ≤ t.offset by omega)
  -- What the match reads stands between the places.
  generalize Text.between (before.reverse ++ after) _ t.offset = read at hpasses
  have hafter : after = read ++ t.after := hpasses.after
  have hstop : t.offset = before.length + read.length := hpasses.offset
  refine ⟨read, t.after, hafter, ?_, by omega, ?_⟩
  · rintro rfl
    rw [List.length_nil] at hstop
    omega
  · have hplace : t = ⟨read.reverse ++ before, t.after, (read.reverse ++ before).length, []⟩ := by
      have hbefore : t.before = read.reverse ++ before := hpasses.before
      have hnothing : t.kept = [] := hkept
      rw [← hbefore, ht.offset, ← hnothing]
    have hsubject : (read.reverse ++ before).reverse ++ t.after = before.reverse ++ after := by
      rw [hafter]
      simp
    unfold foundBehind
    rw [hfound, hsubject, ← hplace]
    congr 1
    apply findAllFrom_eq_of_fuel hsurely ht
    · have hless' : t.after.length < after.length := hless
      omega
    · omega

/-- What the pattern prefers to read is the first match, and the others are found behind it. -/
theorem foundBehind_of_prefers (hsurely : p.surely (fun _ => true) = true)
    (h : p.Prefers header rest before.length captures) :
    p.foundBehind before (header ++ rest) =
      ⟨before.reverse ++ (header ++ rest), before.length, before.length + header.length,
        captures⟩ :: p.foundBehind (header.reverse ++ before) rest := by
  obtain ⟨read, others, hparts, -, hstop, hfound⟩ := exists_foundBehind_cons hsurely
    (h.matchHere? (before.reverse ++ (header ++ rest)) before)
  have hlength : header.length = read.length := Nat.add_left_cancel hstop
  obtain ⟨rfl, rfl⟩ := List.append_inj hparts hlength
  exact hfound

/-- What is found behind a place stands behind it. -/
theorem le_start_of_mem_foundBehind {m : Match} {after : List Char}
    (h : m ∈ p.foundBehind before after) : before.length ≤ m.start :=
  (matches_of_mem_findAllFrom (within_behind before after) rfl h).2

/-! ## Replacing behind a place -/

/-- What becomes of the text behind a place when the matches there are replaced. -/
def replacedBehind (p : Pattern) (f : Match → List Char) (before after : List Char) : List Char :=
  replaceFrom (before.reverse ++ after) f before.length (p.foundBehind before after)

theorem replacedBehind_nil (hsurely : p.surely (fun _ => true) = true) (before : List Char) :
    p.replacedBehind f before [] = [] := by
  rw [replacedBehind, foundBehind_nil hsurely, replaceFrom]
  simp

/-- A character in front of the first match is kept. -/
theorem replaceFrom_of_le {text : List Char} {offset : Nat} {found : List Match}
    (hc : text[offset]? = some c) (h : ∀ m ∈ found, offset + 1 ≤ m.start) :
    replaceFrom text f offset found = c :: replaceFrom text f (offset + 1) found := by
  obtain ⟨hoffset, rfl⟩ := List.getElem?_eq_some_iff.mp hc
  cases found with
  | nil => rw [replaceFrom, replaceFrom, List.drop_eq_getElem_cons hoffset]
  | cons m others =>
    have hstart := h m List.mem_cons_self
    have hone : Text.between text offset (offset + 1) = [text[offset]] := by
      rw [Text.between, List.drop_eq_getElem_cons hoffset, Nat.add_sub_cancel_left]
      rfl
    rw [replaceFrom, replaceFrom, Text.between_split text (Nat.le_succ offset) hstart, hone]
    rfl

/-- A character at which the pattern is refused is kept. -/
theorem replacedBehind_of_refuses (hsurely : p.surely (fun _ => true) = true)
    (h : p.Refuses (c :: rest)) :
    p.replacedBehind f before (c :: rest) = c :: p.replacedBehind f (c :: before) rest := by
  have hsubject : (c :: before).reverse ++ rest = before.reverse ++ c :: rest := by simp
  have hc : (before.reverse ++ c :: rest)[before.length]? = some c := by simp
  have hbehind : ∀ m ∈ p.foundBehind (c :: before) rest, before.length + 1 ≤ m.start :=
    fun m hm => le_start_of_mem_foundBehind hm
  rw [replacedBehind, foundBehind_of_refuses hsurely h, replaceFrom_of_le hc hbehind,
    replacedBehind, hsubject]
  rfl

/-- What the pattern prefers to read is replaced. -/
theorem replacedBehind_of_prefers (hsurely : p.surely (fun _ => true) = true)
    (h : p.Prefers header rest before.length captures) :
    p.replacedBehind f before (header ++ rest) =
      f ⟨before.reverse ++ (header ++ rest), before.length, before.length + header.length,
          captures⟩ ++
        p.replacedBehind f (header.reverse ++ before) rest := by
  have hsubject : (header.reverse ++ before).reverse ++ rest =
      before.reverse ++ (header ++ rest) := by simp
  have hlength : (header.reverse ++ before).length = before.length + header.length := by
    rw [List.length_append, List.length_reverse, Nat.add_comm]
  rw [replacedBehind, foundBehind_of_prefers hsurely h, replaceFrom, Text.between,
    Nat.sub_self, List.take_zero, List.nil_append, replacedBehind, hsubject, hlength]

/-! ## Parts of a text -/

/-- In front of `rest` the text becomes `out`, whatever stands before it. -/
def Rewrites (p : Pattern) (f : Match → List Char) (text rest out : List Char) : Prop :=
  ∀ before, p.replacedBehind f before (text ++ rest) =
    out ++ p.replacedBehind f (text.reverse ++ before) rest

theorem Rewrites.nil (rest : List Char) : p.Rewrites f [] rest [] :=
  fun _ => rfl

theorem Rewrites.append {first second out out' : List Char}
    (hfirst : p.Rewrites f first (second ++ rest) out) (hsecond : p.Rewrites f second rest out') :
    p.Rewrites f (first ++ second) rest (out ++ out') := by
  intro before
  rw [List.append_assoc, hfirst before, hsecond (first.reverse ++ before), List.reverse_append]
  simp only [List.append_assoc]

/-- A character at which the pattern is refused is kept in front of what follows. -/
theorem Rewrites.cons {text out : List Char} (hsurely : p.surely (fun _ => true) = true)
    (hc : p.Refuses (c :: (text ++ rest))) (htext : p.Rewrites f text rest out) :
    p.Rewrites f (c :: text) rest (c :: out) := by
  intro before
  rw [List.cons_append, replacedBehind_of_refuses hsurely hc, htext (c :: before),
    List.reverse_cons, List.append_assoc]
  rfl

/-- A text without the character with which the pattern begins is kept. -/
theorem rewrites_of_notMem {mark : Char} {text : List Char}
    (hsurely : p.surely (fun _ => true) = true)
    (hopens : p.opens (·.within (.char mark)) = true) (h : mark ∉ text) (f : Match → List Char)
    (rest : List Char) : p.Rewrites f text rest text := by
  induction text with
  | nil => exact Rewrites.nil rest
  | cons c text ih =>
    rw [List.mem_cons, not_or] at h
    have hc : (CharSet.char mark).mem c = false := by simpa [CharSet.mem] using h.1
    exact (ih h.2).cons hsurely (refuses_of_opens hopens hsurely hc)

/-- The text between its surroundings is what is kept under the key. -/
theorem group?_between {key : String} (subject front name back : List Char) (start stop : Nat)
    (hsubject : subject = before.reverse ++ (front ++ (name ++ back) ++ rest)) :
    (Match.mk subject start stop [⟨key, before.length + front.length,
      before.length + front.length + name.length⟩]).group? key = some name := by
  have hfront : before.length + front.length = (before.reverse ++ front).length := by
    rw [List.length_append, List.length_reverse]
  have hparts : subject = (before.reverse ++ front) ++ (name ++ (back ++ rest)) := by
    rw [hsubject]
    simp only [List.append_assoc]
  rw [Match.group?, Match.span?, List.find?_cons_of_pos (by simp), Option.map_some, hfront, hparts,
    Text.between_append]

/-- A part that the pattern prefers to read becomes what is made of the text kept in it. -/
theorem rewrites_named {key : String} (g : List Char → List Char) {front name back : List Char}
    (hsurely : p.surely (fun _ => true) = true)
    (h : ∀ offset, p.Prefers (front ++ (name ++ back)) rest offset
      [⟨key, offset + front.length, offset + front.length + name.length⟩]) :
    p.Rewrites (fun m => g ((m.group? key).getD [])) (front ++ (name ++ back)) rest (g name) := by
  intro before
  rw [replacedBehind_of_prefers hsurely (h before.length),
    group?_between _ front name back _ _ rfl]
  rfl

/-- **Whole texts.** What a text becomes in front of nothing is what is left when all matches have
been replaced. -/
theorem replaceAll_of_rewrites {text out : List Char} (hsurely : p.surely (fun _ => true) = true)
    (h : p.Rewrites f text [] out) : p.replaceAll f text = out := by
  have hwhole := h []
  rwa [List.append_nil, replacedBehind_nil hsurely, List.append_nil] at hwhole

end CodeSurvey.Pattern
