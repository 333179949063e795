/-!
# Distinct elements

Of the elements with one key the first is kept. What is kept is in the old order, has no key twice,
and has every key that there was.
-/

namespace CodeSurvey

/-- The elements whose key is not among the seen ones and is not that of an earlier element. -/
def distinctFrom [BEq κ] (key : α → κ) (seen : List κ) : List α → List α
  | [] => []
  | x :: rest =>
    if seen.contains (key x) then distinctFrom key seen rest
    else x :: distinctFrom key (key x :: seen) rest

/-- The first element of each key. -/
def distinctBy [BEq κ] (key : α → κ) (xs : List α) : List α :=
  distinctFrom key [] xs

/-! ## What is kept -/

theorem distinctFrom_sublist [BEq κ] (key : α → κ) (seen : List κ) (xs : List α) :
    (distinctFrom key seen xs).Sublist xs := by
  induction xs generalizing seen with
  | nil => exact List.Sublist.refl _
  | cons x rest ih =>
    unfold distinctFrom
    split
    · exact (ih seen).cons x
    · exact (ih (key x :: seen)).cons_cons x

/-- Every key that there was is kept, unless it has been seen. -/
theorem mem_keys_distinctFrom [BEq κ] [LawfulBEq κ] (key : α → κ) (seen : List κ) (xs : List α)
    (k : κ) : k ∈ (distinctFrom key seen xs).map key ↔ k ∈ xs.map key ∧ k ∉ seen := by
  induction xs generalizing seen with
  | nil => simp [distinctFrom]
  | cons x rest ih =>
    unfold distinctFrom
    split
    · rename_i hseen
      have hx : key x ∈ seen := by simpa using hseen
      rw [ih, List.map_cons, List.mem_cons]
      exact ⟨fun ⟨hk, hn⟩ => ⟨Or.inr hk, hn⟩, fun ⟨hk, hn⟩ =>
        ⟨hk.resolve_left fun e => hn (e ▸ hx), hn⟩⟩
    · rename_i hseen
      have hx : key x ∉ seen := by simpa using hseen
      rw [List.map_cons, List.map_cons, List.mem_cons, List.mem_cons, ih, List.mem_cons]
      constructor
      · rintro (rfl | ⟨hk, hn⟩)
        · exact ⟨Or.inl rfl, hx⟩
        · exact ⟨Or.inr hk, fun h => hn (Or.inr h)⟩
      · rintro ⟨hk, hn⟩
        by_cases e : k = key x
        · exact Or.inl e
        · exact Or.inr ⟨hk.resolve_left e, fun h => h.elim e hn⟩

theorem nodup_keys_distinctFrom [BEq κ] [LawfulBEq κ] (key : α → κ) (seen : List κ)
    (xs : List α) : ((distinctFrom key seen xs).map key).Nodup := by
  induction xs generalizing seen with
  | nil => simp [distinctFrom]
  | cons x rest ih =>
    unfold distinctFrom
    split
    · exact ih seen
    · rw [List.map_cons, List.nodup_cons]
      refine ⟨fun h => ?_, ih _⟩
      rw [mem_keys_distinctFrom] at h
      exact h.2 (List.mem_cons_self)

theorem distinctBy_sublist [BEq κ] (key : α → κ) (xs : List α) :
    (distinctBy key xs).Sublist xs :=
  distinctFrom_sublist key [] xs

theorem nodup_keys_distinctBy [BEq κ] [LawfulBEq κ] (key : α → κ) (xs : List α) :
    ((distinctBy key xs).map key).Nodup :=
  nodup_keys_distinctFrom key [] xs

/-! ## Joined lists -/

/-- Only the keys that occur matter among those that were seen. -/
theorem distinctFrom_congr [BEq κ] [LawfulBEq κ] {key : α → κ} {seen seen' : List κ} {xs : List α}
    (h : ∀ x ∈ xs, key x ∈ seen ↔ key x ∈ seen') :
    distinctFrom key seen xs = distinctFrom key seen' xs := by
  induction xs generalizing seen seen' with
  | nil => rfl
  | cons x rest ih =>
    have hx := h x List.mem_cons_self
    have hrest : ∀ y ∈ rest, key y ∈ seen ↔ key y ∈ seen' :=
      fun y hy => h y (List.mem_cons_of_mem _ hy)
    unfold distinctFrom
    by_cases hseen : key x ∈ seen
    · have hseen' := hx.mp hseen
      simp only [List.contains_iff_mem.mpr hseen, List.contains_iff_mem.mpr hseen', if_true]
      exact ih hrest
    · have hseen' : key x ∉ seen' := fun hs => hseen (hx.mpr hs)
      simp only [List.contains_iff_mem, hseen, hseen', if_false]
      congr 1
      refine ih fun y hy => ?_
      rw [List.mem_cons, List.mem_cons, hrest y hy]

/-- What is kept of two lists without common keys is what is kept of each. -/
theorem distinctFrom_append [BEq κ] [LawfulBEq κ] {key : α → κ} {xs ys : List α}
    (h : ∀ x ∈ xs, ∀ y ∈ ys, key x ≠ key y) (seen : List κ) :
    distinctFrom key seen (xs ++ ys) = distinctFrom key seen xs ++ distinctFrom key seen ys := by
  induction xs generalizing seen with
  | nil => rfl
  | cons x rest ih =>
    have hrest := ih fun y hy => h y (List.mem_cons_of_mem _ hy)
    simp only [List.cons_append, distinctFrom]
    split
    · exact hrest seen
    · rw [hrest, List.cons_append]
      congr 2
      refine distinctFrom_congr fun y hy => ?_
      have hne : key y ≠ key x := fun e => h x List.mem_cons_self y hy e.symm
      simp [hne]

theorem distinctBy_append [BEq κ] [LawfulBEq κ] {key : α → κ} {xs ys : List α}
    (h : ∀ x ∈ xs, ∀ y ∈ ys, key x ≠ key y) :
    distinctBy key (xs ++ ys) = distinctBy key xs ++ distinctBy key ys :=
  distinctFrom_append h []

/-- What is kept of lists that have no keys in common is what is kept of each. -/
theorem distinctBy_flatMap [BEq κ] [LawfulBEq κ] {key : β → κ} {f : α → List β} {xs : List α}
    (h : xs.Pairwise fun x y => ∀ a ∈ f x, ∀ b ∈ f y, key a ≠ key b) :
    distinctBy key (xs.flatMap f) = xs.flatMap fun x => distinctBy key (f x) := by
  induction xs with
  | nil => rfl
  | cons x rest ih =>
    rw [List.pairwise_cons] at h
    rw [List.flatMap_cons, List.flatMap_cons, distinctBy_append, ih h.2]
    intro a ha b hb
    obtain ⟨y, hy, hby⟩ := List.mem_flatMap.mp hb
    exact h.1 y hy a ha b hby

/-! ## Selected elements -/

/-- Where elements with one key are selected together, it does not matter whether one selects before
or after. -/
theorem distinctFrom_filter [BEq κ] [LawfulBEq κ] {key : α → κ} {select : α → Bool} {xs : List α}
    (h : ∀ x ∈ xs, ∀ y ∈ xs, key x = key y → select x = select y) (seen : List κ) :
    distinctFrom key seen (xs.filter select) = (distinctFrom key seen xs).filter select := by
  induction xs generalizing seen with
  | nil => rfl
  | cons x rest ih =>
    have hrest := ih fun y hy z hz => h y (List.mem_cons_of_mem _ hy) z (List.mem_cons_of_mem _ hz)
    cases hx : select x with
    | true =>
      rw [List.filter_cons_of_pos hx]
      unfold distinctFrom
      split
      · exact hrest seen
      · rw [List.filter_cons_of_pos hx, hrest]
    | false =>
      -- No selected element has the key of this one, so it makes no difference that it was seen.
      have hunseen : ∀ y ∈ rest.filter select, key y ∈ seen ↔ key y ∈ key x :: seen := by
        intro y hy
        obtain ⟨hy, hselect⟩ := List.mem_filter.mp hy
        have hne : key y ≠ key x := by
          intro hkey
          rw [h y (List.mem_cons_of_mem _ hy) x List.mem_cons_self hkey, hx] at hselect
          contradiction
        simp [hne]
      have hx' : ¬ select x = true := Bool.eq_false_iff.mp hx
      rw [List.filter_cons_of_neg hx', distinctFrom]
      split
      · exact hrest seen
      · rw [List.filter_cons_of_neg hx', ← hrest, distinctFrom_congr hunseen]

theorem distinctBy_filter [BEq κ] [LawfulBEq κ] {key : α → κ} {select : α → Bool} {xs : List α}
    (h : ∀ x ∈ xs, ∀ y ∈ xs, key x = key y → select x = select y) :
    distinctBy key (xs.filter select) = (distinctBy key xs).filter select :=
  distinctFrom_filter h []

theorem distinctBy_eq_nil [BEq κ] {key : α → κ} {xs : List α} : distinctBy key xs = [] ↔ xs = [] := by
  cases xs <;> simp [distinctBy, distinctFrom]

end CodeSurvey
