/-!
# Cutting lists at signed bounds

A bound counts elements from the front; a negative bound counts from the back. Bounds beyond either
end stand for that end.
-/

namespace CodeSurvey.Text

/-- The place that a signed bound names in a list of the given length. -/
def place (length : Nat) (bound : Int) : Nat :=
  if bound < 0 then (length + bound).toNat else min bound.toNat length

/-- The elements from one signed bound up to another. -/
def cut (xs : List α) (start stop : Int) : List α :=
  let first := place xs.length start
  (xs.drop first).take (place xs.length stop - first)

/-- The elements before a signed bound. -/
def upTo (xs : List α) (stop : Int) : List α :=
  xs.take (place xs.length stop)

/-- The elements of a text at the offsets from `start` up to `stop`. -/
def between (xs : List α) (start stop : Nat) : List α :=
  (xs.drop start).take (stop - start)

@[simp] theorem place_ofNat (length n : Nat) : place length (n : Int) = min n length := by
  unfold place; split <;> omega

theorem upTo_ofNat (xs : List α) (n : Nat) : upTo xs (n : Int) = xs.take n := by
  unfold upTo
  rw [place_ofNat]
  by_cases h : n ≤ xs.length
  · rw [Nat.min_eq_left h]
  · rw [Nat.min_eq_right (by omega), List.take_length, List.take_of_length_le (by omega)]

theorem cut_ofNat (xs : List α) (start stop : Nat) :
    cut xs (start : Int) (stop : Int) = between xs start stop := by
  apply List.ext_getElem?
  intro i
  simp only [cut, between, place_ofNat, List.getElem?_take, List.getElem?_drop]
  by_cases h : i + start < xs.length
  · grind
  · have beyond : xs[start + i]? = none := List.getElem?_eq_none (by omega)
    grind

/-- From the last element on, nothing stands in front of it. -/
theorem cut_from_last {xs : List α} {stop : Nat} (h : stop < xs.length) :
    cut xs (-1) stop = [] := by
  have hfirst : place xs.length (-1) = xs.length - 1 := by
    rw [place, if_pos (by decide)]
    omega
  have hnone : place xs.length stop - place xs.length (-1) = 0 := by
    rw [hfirst, place_ofNat]
    omega
  rw [cut, hnone, List.take_zero]

theorem length_between (xs : List α) (start stop : Nat) :
    (between xs start stop).length = min (stop - start) (xs.length - start) := by
  rw [between, List.length_take, List.length_drop]

/-- The text between two others. -/
theorem between_append (before middle rest : List α) :
    between (before ++ (middle ++ rest)) before.length (before.length + middle.length) =
      middle := by
  rw [between, List.drop_left, Nat.add_sub_cancel_left, List.take_left]

/-- Two parts that meet make one. -/
theorem between_split (text : List α) {start place stop : Nat} (hstart : start ≤ place)
    (hstop : place ≤ stop) :
    between text start stop = between text start place ++ between text place stop := by
  have hdrop : (text.drop start).drop (place - start) = text.drop place := by
    rw [List.drop_drop]
    congr 1
    omega
  have hlength : stop - start = (place - start) + (stop - place) := by omega
  rw [between, hlength, List.take_add, hdrop]
  rfl

/-- A part of a part of a list. -/
theorem between_between (xs : List α) {start stop first last : Nat}
    (h : start + last ≤ stop) :
    between (between xs start stop) first last = between xs (start + first) (start + last) := by
  have hinside : min (last - first) (stop - start - first) = start + last - (start + first) := by
    omega
  rw [between, between, between, List.drop_take, List.take_take, List.drop_drop, hinside]

/-- A part goes on from what stands before it. -/
theorem take_append_between (text : List α) {start stop : Nat} (h : start ≤ stop) :
    text.take start ++ between text start stop = text.take stop := by
  have hlength : stop = start + (stop - start) := by omega
  rw [between, ← List.take_add, ← hlength]

end CodeSurvey.Text
