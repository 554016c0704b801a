/-!
# Blank characters

Blanks are the characters of the property White_Space, not the ASCII ones
alone. `strip` removes elements of a class from both ends of a list, and
`trim` removes blanks from both ends of a text.
-/

namespace DelegatedFetch

/-- The property White_Space: nine ranges, twenty-five characters. -/
def isBlank (c : Char) : Bool :=
  let n := c.toNat
  (9 ≤ n && n ≤ 13) || n == 0x20 || n == 0x85 || n == 0xA0 || n == 0x1680 ||
    (0x2000 ≤ n && n ≤ 0x200A) || n == 0x2028 || n == 0x2029 || n == 0x202F ||
    n == 0x205F || n == 0x3000

/-- A list without the elements of a class at its two ends. -/
def strip {α : Type} (p : α → Bool) (xs : List α) : List α :=
  ((xs.dropWhile p).reverse.dropWhile p).reverse

theorem strip_of_forall_not {α : Type} {p : α → Bool} {xs : List α}
    (h : ∀ x ∈ xs, p x = false) : strip p xs = xs := by
  have front : xs.dropWhile p = xs := by
    cases xs with
    | nil => rfl
    | cons x xs => rw [List.dropWhile_cons, h x List.mem_cons_self]; rfl
  have back : xs.reverse.dropWhile p = xs.reverse := by
    cases hr : xs.reverse with
    | nil => rfl
    | cons x rest =>
      have hx : x ∈ xs := List.mem_reverse.1 (hr ▸ List.mem_cons_self)
      rw [List.dropWhile_cons, h x hx]
      rfl
  rw [strip, front, back, List.reverse_reverse]

theorem strip_cons {α : Type} {p : α → Bool} {x : α} (hx : p x = true) (xs : List α) :
    strip p (x :: xs) = strip p xs := by
  rw [strip, List.dropWhile_cons, hx]
  rfl

theorem strip_between {α : Type} {p : α → Bool} {x : α} (hx : p x = true) {xs : List α}
    (h : ∀ y ∈ xs, p y = false) : strip p (x :: (xs ++ [x])) = xs := by
  rw [strip_cons hx]
  cases xs with
  | nil => simp [strip, hx]
  | cons y ys =>
    have front : ((y :: ys) ++ [x]).dropWhile p = (y :: ys) ++ [x] := by
      rw [List.cons_append, List.dropWhile_cons, h y List.mem_cons_self]
      rfl
    rw [strip, front, List.reverse_append, List.reverse_singleton, List.singleton_append,
      List.dropWhile_cons, hx]
    have inner := strip_of_forall_not h
    rwa [strip, List.dropWhile_cons, h y List.mem_cons_self] at inner

def trimWhere (p : Char → Bool) (s : String) : String := String.ofList (strip p s.toList)

def trim (s : String) : String := trimWhere isBlank s

end DelegatedFetch
