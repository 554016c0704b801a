/-!
# Cutting lists at separators

`pieces` cuts at every separator and always answers at least one piece;
`cut?` cuts at the first separator only. Joining the pieces again with the
separator gives the list back.
-/

namespace DelegatedFetch

variable {α : Type}

/-- The pieces of a list between the elements of a class; a list without such an element is one
piece. -/
def pieces (p : α → Bool) : List α → List (List α)
  | [] => [[]]
  | x :: xs =>
    if p x then [] :: pieces p xs
    else match pieces p xs with
      | [] => [[x]]
      | y :: ys => (x :: y) :: ys

/-- The list before and after its first element of a class, if it has one. -/
def cut? (p : α → Bool) : List α → Option (List α × List α)
  | [] => none
  | x :: xs => if p x then some ([], xs) else (cut? p xs).map fun (a, b) => (x :: a, b)

/-- The list before and after its first element of a class; all of it is before when it has
none. -/
def cut (p : α → Bool) (xs : List α) : List α × List α := (cut? p xs).getD (xs, [])

theorem pieces_ne_nil (p : α → Bool) (xs : List α) : pieces p xs ≠ [] := by
  induction xs with
  | nil => simp [pieces]
  | cons x xs ih =>
    unfold pieces
    split
    · simp
    · split <;> simp

theorem pieces_of_forall_not (p : α → Bool) {xs : List α} (h : ∀ x ∈ xs, p x = false) :
    pieces p xs = [xs] := by
  induction xs with
  | nil => rfl
  | cons x xs ih =>
    rw [pieces, h x (by simp), ih fun y hy => h y (by simp [hy])]
    rfl

theorem pieces_cons_of_not (p : α → Bool) {x : α} (hx : p x = false) {xs y : List α}
    {ys : List (List α)} (h : pieces p xs = y :: ys) : pieces p (x :: xs) = (x :: y) :: ys := by
  simp [pieces, hx, h]

/-- A piece free of separators, then a separator, stands first among the pieces. -/
theorem pieces_append_cons (p : α → Bool) {xs : List α} (h : ∀ x ∈ xs, p x = false)
    {s : α} (hs : p s = true) (rest : List α) :
    pieces p (xs ++ s :: rest) = xs :: pieces p rest := by
  induction xs with
  | nil => simp [pieces, hs]
  | cons x xs ih =>
    rw [List.cons_append, pieces, h x (by simp), ih fun y hy => h y (by simp [hy])]
    rfl

theorem pieces_append_separator (p : α → Bool) (xs : List α) {s : α} (hs : p s = true)
    (rest : List α) : pieces p (xs ++ s :: rest) = pieces p xs ++ pieces p rest := by
  induction xs with
  | nil => simp [pieces, hs]
  | cons x xs ih =>
    by_cases hx : p x = true
    · simp [pieces, hx, ih]
    · simp only [List.cons_append, pieces, hx, ih]
      cases h : pieces p xs with
      | nil => exact absurd h (pieces_ne_nil p xs)
      | cons y ys => rfl

theorem cut?_append_cons (p : α → Bool) {xs : List α} (h : ∀ x ∈ xs, p x = false)
    {s : α} (hs : p s = true) (rest : List α) :
    cut? p (xs ++ s :: rest) = some (xs, rest) := by
  induction xs with
  | nil => simp [cut?, hs]
  | cons x xs ih =>
    rw [List.cons_append, cut?, h x (by simp), ih fun y hy => h y (by simp [hy])]
    rfl

end DelegatedFetch
