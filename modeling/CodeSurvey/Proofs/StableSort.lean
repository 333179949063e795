import CodeSurvey.Text.Names

/-!
# Lists in another order

What does not change when lists are put together in another order: sorted lists, as long as elements
that tie keep their order, and lists of names without repetitions.

- `mergeSort_eq_of_ties`: a stable sort depends only on the classes of elements that tie.
- `mergeSort_eq_of_perm`: without ties it depends only on the elements.
- `filter_mergeSort`, `head?_mergeSort`: what is selected from a sorted list, and what comes first.
- `flatMap_eq_of_perm`: what comes from one element only can be joined in any order.
- `Text.mem_sortedNames`, `Text.sortedNames_pairwise`: which names are sorted, and how.
- `Text.eq_of_increasing`, `Text.sortedNames_congr`: sorted names depend only on the set of names.
-/

namespace CodeSurvey

/-! ## Orders -/

/-- A check whether one element may stand before another that sorting can rely on. -/
structure IsOrder (le : α → α → Bool) : Prop where
  trans : ∀ a b c, le a b = true → le b c = true → le a c = true
  total : ∀ a b, (le a b || le b a) = true

/-- A comparison says which element may stand before another. -/
theorem isOrder_isLE (cmp : α → α → Ordering) [Std.TransCmp cmp] :
    IsOrder fun a b => (cmp a b).isLE where
  trans _ _ _ := Std.TransCmp.isLE_trans
  total a b := by
    have hswap : cmp b a = (cmp a b).swap := Std.OrientedCmp.eq_swap
    rw [hswap, Ordering.isLE_swap]
    cases cmp a b <;> rfl

/-- Names in the order of their code points. -/
theorem isOrder_names : IsOrder fun a b : String => decide (a ≤ b) where
  trans a b c hab hbc := by
    rw [decide_eq_true_eq] at hab hbc ⊢
    exact String.le_trans hab hbc
  total a b := by
    rw [Bool.or_eq_true, decide_eq_true_eq, decide_eq_true_eq]
    exact String.le_total a b

/-- Elements compared by what they are mapped to. -/
theorem IsOrder.on {le : β → β → Bool} (h : IsOrder le) (f : α → β) :
    IsOrder fun a b => le (f a) (f b) :=
  ⟨fun _ _ _ => h.trans _ _ _, fun _ _ => h.total _ _⟩

/-! ## Ties -/

variable {le : α → α → Bool}

/-- Whether two elements may stand in either order. -/
def tie (le : α → α → Bool) (a b : α) : Bool :=
  le a b && le b a

theorem IsOrder.tie_self (h : IsOrder le) (a : α) : tie le a a = true := by
  have haa : le a a = true := by simpa using h.total a a
  simp [tie, haa]

/-- Sorting leaves elements that tie in the order in which they were. -/
theorem filter_tie_mergeSort (h : IsOrder le) (a : α) (xs : List α) :
    (xs.mergeSort le).filter (tie le a) = xs.filter (tie le a) := by
  have htied : (xs.filter (tie le a)).Pairwise fun b c => le b c = true := by
    rw [List.pairwise_filter]
    refine List.pairwise_of_forall fun b c hb hc => ?_
    simp only [tie, Bool.and_eq_true] at hb hc
    exact h.trans b a c hb.2 hc.1
  have hstable : (xs.filter (tie le a)).Sublist (xs.mergeSort le) :=
    List.sublist_mergeSort h.trans h.total htied List.filter_sublist
  have hfiltered : (xs.filter (tie le a)).Sublist ((xs.mergeSort le).filter (tie le a)) := by
    have hfilter := hstable.filter (tie le a)
    simpa only [List.filter_filter, Bool.and_self] using hfilter
  refine (hfiltered.eq_of_length ?_).symm
  exact ((List.mergeSort_perm xs le).filter _).length_eq.symm

/-- Two sorted lists with the same elements in each class of ties are one list. -/
theorem eq_of_ties (h : IsOrder le) {xs ys : List α}
    (hxs : xs.Pairwise fun b c => le b c = true) (hys : ys.Pairwise fun b c => le b c = true)
    (hties : ∀ a, xs.filter (tie le a) = ys.filter (tie le a)) : xs = ys := by
  induction xs generalizing ys with
  | nil =>
    cases ys with
    | nil => rfl
    | cons y ys =>
      have hy := hties y
      rw [List.filter_cons_of_pos (h.tie_self y)] at hy
      contradiction
  | cons x xs ih =>
    cases ys with
    | nil =>
      have hx := hties x
      rw [List.filter_cons_of_pos (h.tie_self x)] at hx
      contradiction
    | cons y ys =>
      -- Each head occurs in the other list, so neither stands strictly before the other.
      have hmem (z : α) : z ∈ x :: xs ↔ z ∈ y :: ys := by
        have hz := congrArg (z ∈ ·) (hties z)
        simpa only [List.mem_filter, h.tie_self z, and_true, eq_iff_iff] using hz
      have hle {u v : α} {us : List α} (hus : (u :: us).Pairwise fun b c => le b c = true)
          (hv : v ∈ u :: us) : le u v = true := by
        rcases List.mem_cons.mp hv with rfl | hv
        · simpa using h.total v v
        · exact List.rel_of_pairwise_cons hus hv
      -- Both heads are least, so they tie, and each is the first one that ties with them.
      have hxy : tie le x y = true := by
        rw [tie, Bool.and_eq_true]
        exact ⟨hle hxs ((hmem y).mpr List.mem_cons_self), hle hys ((hmem x).mp List.mem_cons_self)⟩
      have hhead : x = y := by
        have hx := hties x
        rw [List.filter_cons_of_pos (h.tie_self x), List.filter_cons_of_pos hxy] at hx
        exact (List.cons.inj hx).1
      subst hhead
      congr 1
      refine ih hxs.tail hys.tail fun a => ?_
      have ha := hties a
      by_cases hax : tie le a x = true
      · rw [List.filter_cons_of_pos hax, List.filter_cons_of_pos hax] at ha
        exact (List.cons.inj ha).2
      · rwa [List.filter_cons_of_neg hax, List.filter_cons_of_neg hax] at ha

/-- **Stability.** A sort depends only on the elements of each class of ties and their order. -/
theorem mergeSort_eq_of_ties (h : IsOrder le) {xs ys : List α}
    (hties : ∀ a, xs.filter (tie le a) = ys.filter (tie le a)) :
    xs.mergeSort le = ys.mergeSort le := by
  refine eq_of_ties h (List.pairwise_mergeSort h.trans h.total xs)
    (List.pairwise_mergeSort h.trans h.total ys) fun a => ?_
  rw [filter_tie_mergeSort h, filter_tie_mergeSort h, hties a]

/-- Where no two elements tie, a sort depends only on the elements. -/
theorem mergeSort_eq_of_perm (h : IsOrder le) {xs ys : List α} (hperm : xs.Perm ys)
    (hanti : ∀ a ∈ xs, ∀ b ∈ xs, le a b = true → le b a = true → a = b) :
    xs.mergeSort le = ys.mergeSort le := by
  refine List.Perm.eq_of_pairwise (fun a b ha hb => hanti a ?_ b ?_)
    (List.pairwise_mergeSort h.trans h.total xs) (List.pairwise_mergeSort h.trans h.total ys) ?_
  · exact List.mem_mergeSort.mp ha
  · exact hperm.mem_iff.mpr (List.mem_mergeSort.mp hb)
  · exact (List.mergeSort_perm xs le).trans (hperm.trans (List.mergeSort_perm ys le).symm)

/-- What is selected from a sorted list is what is selected, sorted. -/
theorem filter_mergeSort (h : IsOrder le) (select : α → Bool) (xs : List α) :
    (xs.mergeSort le).filter select = (xs.filter select).mergeSort le := by
  refine eq_of_ties h ((List.pairwise_mergeSort h.trans h.total xs).filter _)
    (List.pairwise_mergeSort h.trans h.total _) fun a => ?_
  have hswap (ys : List α) :
      (ys.filter select).filter (tie le a) = (ys.filter (tie le a)).filter select := by
    rw [List.filter_filter, List.filter_filter]
    exact List.filter_congr fun _ _ => Bool.and_comm _ _
  calc
    ((xs.mergeSort le).filter select).filter (tie le a)
        = ((xs.mergeSort le).filter (tie le a)).filter select := hswap _
    _ = (xs.filter (tie le a)).filter select := by rw [filter_tie_mergeSort h]
    _ = (xs.filter select).filter (tie le a) := (hswap xs).symm
    _ = ((xs.filter select).mergeSort le).filter (tie le a) := (filter_tie_mergeSort h a _).symm

/-! ## Least elements -/

/-- The elements that may stand before all others. -/
def leasts (le : α → α → Bool) (xs : List α) : List α :=
  xs.filter fun x => xs.all (le x)

/-- An element that has to stand behind another is not among the least ones, wherever it stands. -/
theorem leasts_insert (h : IsOrder le) {before after : List α} {x y : α}
    (hy : y ∈ before ++ after) (hxy : le x y = false) :
    leasts le (before ++ x :: after) = leasts le (before ++ after) := by
  have hyx : le y x = true := by simpa [hxy] using h.total x y
  have hall (z : α) :
      (before ++ x :: after).all (le z) = (le z x && (before ++ after).all (le z)) := by
    simp only [List.all_append, List.all_cons, Bool.and_left_comm]
  have hx : (before ++ x :: after).all (le x) = false := by
    rw [hall, List.all_eq_false.mpr ⟨y, hy, by simp [hxy]⟩, Bool.and_false]
  rw [leasts, leasts, List.filter_append, List.filter_cons_of_neg (by rw [hx]; decide),
    ← List.filter_append]
  refine List.filter_congr fun z hz => ?_
  rw [hall]
  -- What may stand before all others may stand before `y`, and so before `x`.
  cases hleast : (before ++ after).all (le z) with
  | false => rw [Bool.and_false]
  | true => rw [h.trans z y x (List.all_eq_true.mp hleast y hy) hyx, Bool.true_and]

/-- The first element of a sorted list is the first of the least ones. -/
theorem head?_mergeSort (h : IsOrder le) (xs : List α) :
    (xs.mergeSort le).head? = (leasts le xs).head? := by
  have hsorted := List.pairwise_mergeSort h.trans h.total xs
  cases hcons : xs.mergeSort le with
  | nil =>
    have hnil : xs = [] := by
      have hlength := congrArg List.length hcons
      rw [List.length_mergeSort] at hlength
      exact List.length_eq_zero_iff.mp hlength
    rw [hnil]
    rfl
  | cons first others =>
    rw [hcons] at hsorted
    have hsame (y : α) : y ∈ xs ↔ y ∈ first :: others := by
      rw [← hcons, (List.mergeSort_perm xs le).mem_iff]
    have hleast : ∀ y ∈ xs, le first y = true := by
      intro y hy
      rcases List.mem_cons.mp ((hsame y).mp hy) with rfl | hy
      · simpa using h.total y y
      · exact List.rel_of_pairwise_cons hsorted hy
    have hmem : first ∈ xs := (hsame first).mpr List.mem_cons_self
    -- The least elements are those that tie with the first one of the sorted list.
    have hties : leasts le xs = xs.filter (tie le first) := by
      refine List.filter_congr fun x hx => ?_
      rw [Bool.eq_iff_iff, List.all_eq_true, tie, hleast x hx, Bool.true_and]
      exact ⟨fun hall => hall first hmem, fun hfirst y hy => h.trans x first y hfirst (hleast y hy)⟩
    rw [hties, ← filter_tie_mergeSort h, hcons, List.filter_cons_of_pos (h.tie_self first)]
    rfl

/-! ## Joined lists -/

/-- If only one element contributes anything, the order of the elements does not matter. -/
theorem flatMap_eq_of_perm {xs ys : List α} {f : α → List β} (hperm : xs.Perm ys)
    (h : xs.Pairwise fun x y => f x = [] ∨ f y = []) : xs.flatMap f = ys.flatMap f := by
  induction hperm with
  | nil => rfl
  | cons x _ ih =>
    rw [List.flatMap_cons, List.flatMap_cons, ih (List.pairwise_cons.mp h).2]
  | swap x y rest =>
    have hxy := List.rel_of_pairwise_cons h List.mem_cons_self
    simp only [List.flatMap_cons]
    rcases hxy with hy | hx
    · rw [hy, List.nil_append, List.nil_append]
    · rw [hx, List.nil_append, List.nil_append]
  | trans h₁ _ ih₁ ih₂ => exact (ih₁ h).trans (ih₂ (h₁.pairwise h Or.symm))

/-- Elements of a list are the same if they agree in what tells the elements of the list apart. -/
theorem eq_of_key_eq {xs : List α} {key : α → β} (h : xs.Pairwise fun x y => key x ≠ key y)
    {x y : α} (hx : x ∈ xs) (hy : y ∈ xs) (hkey : key x = key y) : x = y := by
  induction xs with
  | nil => contradiction
  | cons z rest ih =>
    rw [List.pairwise_cons] at h
    rcases List.mem_cons.mp hx with rfl | hxrest
    · rcases List.mem_cons.mp hy with rfl | hyrest
      · rfl
      · exact absurd hkey (h.1 y hyrest)
    · rcases List.mem_cons.mp hy with rfl | hyrest
      · exact absurd hkey.symm (h.1 x hxrest)
      · exact ih h.2 hxrest hyrest

/-- Blocks that are marked by different keys can be joined in any order without changing what is
picked out by one key. -/
theorem filter_flatMap_eq_of_perm {xs ys : List α} {key : α → κ} {f : α → List β} (keyOf : β → κ)
    (hperm : xs.Perm ys) (hdistinct : xs.Pairwise fun x y => key x ≠ key y)
    (hkey : ∀ x, ∀ b ∈ f x, keyOf b = key x) {p : β → Bool}
    (hp : ∀ b c, p b = true → p c = true → keyOf b = keyOf c) :
    (xs.flatMap f).filter p = (ys.flatMap f).filter p := by
  rw [List.filter_flatMap, List.filter_flatMap]
  refine flatMap_eq_of_perm hperm (hdistinct.imp fun {x y} hxy => ?_)
  -- Two blocks that both hold something that is picked out would have one key.
  rcases hb : (f x).filter p with _ | ⟨b, bs⟩
  · exact .inl rfl
  · rcases hc : (f y).filter p with _ | ⟨c, cs⟩
    · exact .inr rfl
    · have hb' : b ∈ (f x).filter p := by simp [hb]
      have hc' : c ∈ (f y).filter p := by simp [hc]
      rw [List.mem_filter] at hb' hc'
      refine absurd ?_ hxy
      rw [← hkey x b hb'.1, ← hkey y c hc'.1]
      exact hp b c hb'.2 hc'.2

/-- What is picked out by the key of a block is the block. -/
theorem filter_flatMap_eq_block [BEq κ] [LawfulBEq κ] {xs : List α} {key : α → κ}
    {f : α → List β} (keyOf : β → κ) (hdistinct : xs.Pairwise fun x y => key x ≠ key y)
    (hkey : ∀ x, ∀ b ∈ f x, keyOf b = key x) {x : α} (hx : x ∈ xs) :
    (xs.flatMap f).filter (fun b => keyOf b == key x) = f x := by
  have hown (y : α) (h : key y = key x) : (f y).filter (fun b => keyOf b == key x) = f y := by
    rw [List.filter_eq_self]
    intro b hb
    rw [hkey y b hb, h]
    exact beq_self_eq_true _
  have hother (y : α) (h : key y ≠ key x) : (f y).filter (fun b => keyOf b == key x) = [] := by
    rw [List.filter_eq_nil_iff]
    intro b hb
    rw [hkey y b hb]
    simpa using h
  rw [List.filter_flatMap]
  induction xs with
  | nil => contradiction
  | cons y rest ih =>
    rw [List.pairwise_cons] at hdistinct
    rw [List.flatMap_cons]
    rcases List.mem_cons.mp hx with rfl | hxrest
    · have hrest : rest.flatMap (fun y => (f y).filter fun b => keyOf b == key x) = [] := by
        rw [List.flatMap_eq_nil_iff]
        exact fun z hz => hother z (hdistinct.1 z hz).symm
      rw [hrest, hown x rfl, List.append_nil]
    · rw [hother y (hdistinct.1 x hxrest), List.nil_append, ih hdistinct.2 hxrest]

/-! ## Names -/

theorem nodup_eraseDups [BEq α] [LawfulBEq α] (xs : List α) : xs.eraseDups.Nodup := by
  match xs with
  | [] => simp
  | x :: rest =>
    rw [List.eraseDups_cons, List.nodup_cons]
    refine ⟨fun hx => ?_, nodup_eraseDups _⟩
    rw [List.mem_eraseDups, List.mem_filter] at hx
    simp at hx
termination_by xs.length
decreasing_by exact Nat.lt_succ_of_le (List.length_filter_le _ _)

/-- Lists with the same elements have as many different ones. -/
theorem eraseDups_perm [BEq α] [LawfulBEq α] {xs ys : List α} (h : ∀ a, a ∈ xs ↔ a ∈ ys) :
    xs.eraseDups.Perm ys.eraseDups := by
  rw [List.perm_ext_iff_of_nodup (nodup_eraseDups xs) (nodup_eraseDups ys)]
  intro a
  rw [List.mem_eraseDups, List.mem_eraseDups, h a]

namespace Text

theorem mem_sortedNames {names : List String} {name : String} :
    name ∈ sortedNames names ↔ name ∈ names := by
  rw [sortedNames, List.mem_mergeSort, List.mem_eraseDups]

/-- What is sorted by distinct names increases strictly. -/
theorem mergeSort_pairwise_lt {xs : List α} (name : α → String) (h : (xs.map name).Nodup) :
    (xs.mergeSort fun a b => decide (name a ≤ name b)).Pairwise fun a b => name a < name b := by
  have hsorted := List.pairwise_mergeSort (isOrder_names.on name).trans
    (isOrder_names.on name).total xs
  have hdistinct : (xs.mergeSort fun a b => decide (name a ≤ name b)).Pairwise
      fun a b => name a ≠ name b :=
    List.pairwise_map.mp (((List.mergeSort_perm xs _).map name).nodup_iff.mpr h)
  refine (hsorted.and hdistinct).imp fun {a b} hab => ?_
  obtain ⟨hle, hne⟩ := hab
  refine Decidable.byContradiction fun hless => hne ?_
  exact String.le_antisymm (of_decide_eq_true hle) (String.not_lt.mp hless)

/-- Sorted names increase strictly. -/
theorem sortedNames_pairwise (names : List String) : (sortedNames names).Pairwise (· < ·) :=
  mergeSort_pairwise_lt id (by simpa using nodup_eraseDups names)

/-- Names that increase strictly are settled by which names there are. -/
theorem eq_of_increasing {names names' : List String} (h : names.Pairwise (· < ·))
    (h' : names'.Pairwise (· < ·)) (hmem : ∀ n, n ∈ names ↔ n ∈ names') : names = names' := by
  have hnodup {names : List String} (h : names.Pairwise (· < ·)) : names.Nodup := by
    refine h.imp fun {a b} hless => ?_
    rintro rfl
    exact String.lt_irrefl a hless
  refine List.Perm.eq_of_pairwise (fun a b _ _ hab hba => ?_) h h' ?_
  · exact absurd hba (String.lt_asymm hab)
  · exact (List.perm_ext_iff_of_nodup (hnodup h) (hnodup h')).mpr hmem

/-- Sorted names depend only on the set of names. -/
theorem sortedNames_congr {names names' : List String} (h : ∀ n, n ∈ names ↔ n ∈ names') :
    sortedNames names = sortedNames names' :=
  mergeSort_eq_of_perm isOrder_names (eraseDups_perm h) fun a _ b _ hab hba => by
    rw [decide_eq_true_eq] at hab hba
    exact String.le_antisymm hab hba

/-- How often names occur does not depend on their order. -/
theorem tally_eq_of_perm {names names' : List String} (h : names.Perm names') :
    tally names = tally names' := by
  unfold tally
  rw [sortedNames_congr fun n => h.mem_iff]
  exact List.map_congr_left fun n _ => by rw [h.count_eq n]

end Text

end CodeSurvey
