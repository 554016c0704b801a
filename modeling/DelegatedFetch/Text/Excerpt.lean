/-!
# Excerpts

A trace shows at most 2048 bytes of a body. A longer body is cut where a
character ends: the place is searched for backwards, one byte at a time, and
three dots stand for what is left out.
-/

namespace DelegatedFetch.Excerpt

def limit : Nat := 2048

/-- Whether a character of a text begins at byte `n`, or the text ends there. -/
def isBoundary (s : String) (n : Nat) : Bool := String.Pos.Raw.isValid s ⟨n⟩

/-- The last boundary that is not beyond byte `n`. There is none if the search would have to step
back from the front of the text. -/
def lastBoundary? (s : String) : Nat → Option Nat
  | 0 => if isBoundary s 0 then some 0 else none
  | n + 1 => if isBoundary s (n + 1) then some (n + 1) else lastBoundary? s n

/-- The first `n` bytes of a text, unless they end inside a character. -/
def front? (s : String) (n : Nat) : Option String :=
  if h : isBoundary s n then
    some (s.sliceTo (s.pos ⟨n⟩ (String.Pos.Raw.isValid_eq_true_iff.1 h))).copy
  else none

/-- A text that fits, or what fits of it and three dots. There is none without a place to cut. -/
def excerpt? (s : String) : Option String :=
  if s.utf8ByteSize ≤ limit then some s
  else (lastBoundary? s limit).bind fun n => (front? s n).map (· ++ "...")

theorem isBoundary_zero (s : String) : isBoundary s 0 = true :=
  String.Pos.Raw.isValid_eq_true_iff.2 String.Pos.Raw.isValid_zero

theorem exists_lastBoundary? (s : String) (n : Nat) :
    ∃ m, lastBoundary? s n = some m ∧ isBoundary s m = true := by
  induction n with
  | zero => exact ⟨0, if_pos (isBoundary_zero s), isBoundary_zero s⟩
  | succ n ih =>
    by_cases here : isBoundary s (n + 1)
    · exact ⟨n + 1, if_pos here, here⟩
    · obtain ⟨m, found, boundary⟩ := ih
      exact ⟨m, (if_neg here).trans found, boundary⟩

theorem isSome_excerpt? (s : String) : (excerpt? s).isSome := by
  unfold excerpt?
  split
  · rfl
  · obtain ⟨m, found, boundary⟩ := exists_lastBoundary? s limit
    simp [found, front?, boundary]

/-- A place to cut is always found. -/
def excerpt (s : String) : String := (excerpt? s).get (isSome_excerpt? s)

end DelegatedFetch.Excerpt
