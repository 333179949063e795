import CodeSurvey.Distinct
import Mathlib.Data.List.Induction

/-!
# First elements

What is kept of a list, if elements are told apart by a key, are the elements before which none with
their key stands.

- `firstsBy`: those elements, told by looking back from each of them.
- `distinctBy_append_seen`: what is kept of two lists.
- `distinctBy_eq_firstsBy`: what is kept of a list.
-/

namespace CodeSurvey

/-- The elements before which none with their key stands. -/
def firstsBy [BEq κ] (key : α → κ) (xs : List α) : List α :=
  (xs.zipIdx.filter fun e => !((xs.take e.2).map key).contains (key e.1)).map (·.1)

variable [BEq κ] [LawfulBEq κ] {key : α → κ}

/-- What is kept of the second of two lists depends on the keys of the first one. -/
theorem distinctFrom_append_seen (seen : List κ) (xs ys : List α) :
    distinctFrom key seen (xs ++ ys) =
      distinctFrom key seen xs ++ distinctFrom key (seen ++ xs.map key) ys := by
  induction xs generalizing seen with
  | nil => simp [distinctFrom]
  | cons x rest ih =>
    simp only [List.cons_append, distinctFrom]
    split
    · -- A key that has been seen adds nothing to those of the first list.
      rename_i hseen
      rw [ih]
      congr 1
      apply distinctFrom_congr
      have hx : key x ∈ seen := by simpa using hseen
      grind
    · rw [ih, List.cons_append]
      congr 2
      apply distinctFrom_congr
      grind

theorem distinctBy_append_seen (xs ys : List α) :
    distinctBy key (xs ++ ys) = distinctBy key xs ++ distinctFrom key (xs.map key) ys := by
  rw [distinctBy, distinctFrom_append_seen]
  rfl

theorem distinctFrom_eq_nil {seen : List κ} {xs : List α} (h : ∀ x ∈ xs, key x ∈ seen) :
    distinctFrom key seen xs = [] := by
  apply List.eq_nil_iff_forall_not_mem.mpr
  intro x hx
  obtain ⟨-, hunseen⟩ := (mem_keys_distinctFrom key seen xs (key x)).mp (List.mem_map_of_mem hx)
  exact hunseen (h x ((distinctFrom_sublist key seen xs).subset hx))

theorem distinctFrom_eq_self {seen : List κ} {xs : List α} (h : (xs.map key).Nodup)
    (hseen : ∀ x ∈ xs, key x ∉ seen) : distinctFrom key seen xs = xs := by
  induction xs generalizing seen with
  | nil => rfl
  | cons x rest ih =>
    rw [List.map_cons, List.nodup_cons] at h
    have hx : seen.contains (key x) = false := by simpa using hseen x List.mem_cons_self
    rw [distinctFrom, hx, if_neg Bool.false_ne_true, ih h.2]
    intro y hy
    rw [List.mem_cons, not_or]
    refine ⟨fun hkey => h.1 ?_, hseen y (List.mem_cons_of_mem _ hy)⟩
    rw [← hkey]
    exact List.mem_map_of_mem hy

/-- Elements with different keys are all kept. -/
theorem distinctBy_eq_self {xs : List α} (h : (xs.map key).Nodup) : distinctBy key xs = xs :=
  distinctFrom_eq_self h fun _ _ => List.not_mem_nil

/-- Elements whose keys have come before change nothing, whatever follows them. -/
theorem distinctBy_repeat {xs ys : List α} (h : ∀ y ∈ ys, key y ∈ xs.map key) (zs : List α) :
    distinctBy key (xs ++ ys ++ zs) = distinctBy key (xs ++ zs) := by
  have hys : distinctBy key (xs ++ ys) = distinctBy key xs := by
    rw [distinctBy_append_seen, distinctFrom_eq_nil h, List.append_nil]
  rw [distinctBy_append_seen, hys, distinctBy_append_seen]
  congr 1
  apply distinctFrom_congr
  intro z _
  rw [List.map_append, List.mem_append]
  constructor
  · rintro (hz | hz)
    · exact hz
    · obtain ⟨y, hy, hkey⟩ := List.mem_map.mp hz
      rw [← hkey]
      exact h y hy
  · exact Or.inl

omit [LawfulBEq κ] in
theorem firstsBy_concat (xs : List α) (x : α) :
    firstsBy key (xs ++ [x]) =
      firstsBy key xs ++ if (xs.map key).contains (key x) then [] else [x] := by
  -- Whether an element is the first of its key depends only on those in front of it, and these are
  -- the same in both lists.
  have hfilter : (xs.zipIdx.filter fun e => !(((xs ++ [x]).take e.2).map key).contains (key e.1)) =
      xs.zipIdx.filter fun e => !((xs.take e.2).map key).contains (key e.1) := by
    apply List.filter_congr
    intro e he
    have hle : e.2 ≤ xs.length := by
      have hlt := List.snd_lt_of_mem_zipIdx he
      omega
    rw [List.take_append_of_le_length hle]
  have htake : (xs ++ [x]).take xs.length = xs := List.take_left
  rw [firstsBy, List.zipIdx_append, List.filter_append, hfilter, List.map_append]
  congr 1
  simp only [List.zipIdx_cons, List.zipIdx_nil, Nat.zero_add, List.filter_cons, List.filter_nil,
    htake]
  cases (xs.map key).contains (key x) <;> rfl

/-- **What is kept**: the first element of each key, in order. The induction appends one element: it
is kept if its key is new. -/
theorem distinctBy_eq_firstsBy (key : α → κ) (xs : List α) :
    distinctBy key xs = firstsBy key xs := by
  induction xs using List.reverseRecOn with
  | nil => rfl
  | append_singleton xs x ih =>
    rw [distinctBy_append_seen, firstsBy_concat, ih]
    rfl

end CodeSurvey
