import DelegatedFetch.Text.Excerpt
import Mathlib.Data.String.Basic

/-!
# What an excerpt keeps

The boundaries of a text are the sizes of its prefixes. So the search backwards ends
at the size of the longest prefix that fits, and as a character has at most four
bytes, it gets there in at most three steps. What is cut off there is that prefix,
whole characters and as many as there is room for.
-/

namespace DelegatedFetch.Excerpt

open String (utf8Len)

/-- The longest prefix of whole characters whose UTF-8 form fits in `n` bytes. -/
def takeBytes (n : Nat) : List Char → List Char
  | [] => []
  | c :: cs => if c.utf8Size ≤ n then c :: takeBytes (n - c.utf8Size) cs else []

variable {s front : String} {n m : Nat}

/-- The prefixes of the longest one that fits are all those that fit. -/
theorem prefix_takeBytes_iff {cs front : List Char} :
    front <+: takeBytes n cs ↔ front <+: cs ∧ utf8Len front ≤ n := by
  induction cs generalizing front n with
  | nil =>
    rw [takeBytes, List.prefix_nil]
    constructor
    · rintro rfl
      exact ⟨rfl, Nat.zero_le n⟩
    · exact And.left
  | cons c cs ih =>
    cases front with
    | nil => simp [utf8Len]
    | cons d front =>
      rw [takeBytes, List.cons_prefix_cons, utf8Len]
      by_cases first : c.utf8Size ≤ n
      · rw [if_pos first, List.cons_prefix_cons, ih]
        constructor
        · rintro ⟨rfl, within, fits⟩
          exact ⟨⟨rfl, within⟩, by omega⟩
        · rintro ⟨⟨rfl, within⟩, fits⟩
          exact ⟨rfl, within, by omega⟩
      · rw [if_neg first, List.prefix_nil]
        constructor
        · exact fun empty => absurd empty (List.cons_ne_nil d front)
        · rintro ⟨⟨rfl, -⟩, fits⟩
          omega

theorem prefix_takeBytes (n : Nat) (cs : List Char) : takeBytes n cs <+: cs :=
  (prefix_takeBytes_iff.1 (List.prefix_refl _)).1

theorem utf8Len_takeBytes_le (n : Nat) (cs : List Char) : utf8Len (takeBytes n cs) ≤ n :=
  (prefix_takeBytes_iff.1 (List.prefix_refl _)).2

/-- The character that does not fit any more leaves at most three bytes of room. -/
theorem le_utf8Len_takeBytes {cs : List Char} (long : n ≤ utf8Len cs) :
    n ≤ utf8Len (takeBytes n cs) + 3 := by
  induction cs generalizing n with
  | nil => exact Nat.le_trans long (Nat.zero_le 3)
  | cons c cs ih =>
    rw [takeBytes]
    by_cases first : c.utf8Size ≤ n
    · rw [if_pos first, utf8Len]
      rw [utf8Len] at long
      have rest := ih (n := n - c.utf8Size) (by omega)
      omega
    · have four := c.utf8Size_le_four
      omega

theorem utf8Size_ascii {c : Char} (ascii : c.toNat < 0x80) : c.utf8Size = 1 :=
  Char.utf8Size_eq_one_iff.2 (Nat.le_of_lt_succ ascii)

theorem utf8Len_ascii {v : List Char} (ascii : ∀ c ∈ v, c.toNat < 0x80) : utf8Len v = v.length := by
  induction v with
  | nil => rfl
  | cons c v ih =>
    rw [utf8Len, utf8Size_ascii (ascii c List.mem_cons_self), List.length_cons,
      ih fun d mem => ascii d (List.mem_cons_of_mem c mem)]

theorem takeBytes_ascii {v : List Char} (ascii : ∀ c ∈ v, c.toNat < 0x80) (n : Nat) :
    takeBytes n v = v.take n := by
  induction v generalizing n with
  | nil => simp [takeBytes]
  | cons c v ih =>
    have rest := ih fun d mem => ascii d (List.mem_cons_of_mem c mem)
    rw [takeBytes, utf8Size_ascii (ascii c List.mem_cons_self)]
    cases n with
    | zero => rfl
    | succ n => rw [if_pos (Nat.le_add_left 1 n), rest, Nat.add_sub_cancel, List.take_succ_cons]

theorem takeBytes_append (n : Nat) (a b : List Char) :
    takeBytes n (a ++ b) =
      if utf8Len a ≤ n then a ++ takeBytes (n - utf8Len a) b else takeBytes n a := by
  induction a generalizing n with
  | nil => simp [utf8Len]
  | cons c a ih =>
    rw [List.cons_append, takeBytes, takeBytes, utf8Len]
    by_cases first : c.utf8Size ≤ n
    · have shift : utf8Len a ≤ n - c.utf8Size ↔ utf8Len a + c.utf8Size ≤ n := by omega
      have left : n - c.utf8Size - utf8Len a = n - (utf8Len a + c.utf8Size) := by omega
      rw [if_pos first, if_pos first, ih, left]
      by_cases whole : utf8Len a + c.utf8Size ≤ n
      · rw [if_pos whole, if_pos (shift.2 whole)]
        rfl
      · rw [if_neg whole, if_neg (mt shift.1 whole)]
    · rw [if_neg first, if_neg first, if_neg (by omega)]

/-- What an excerpt leaves of ASCII characters and what follows them depends on their number. -/
theorem takeBytes_ascii_append {v : List Char} (ascii : ∀ c ∈ v, c.toNat < 0x80) (n : Nat)
    (back : List Char) : takeBytes n (v ++ back) =
      v.take n ++ if v.length ≤ n then takeBytes (n - v.length) back else [] := by
  rw [takeBytes_append, takeBytes_ascii ascii, utf8Len_ascii ascii]
  by_cases whole : v.length ≤ n
  · rw [if_pos whole, if_pos whole, List.take_of_length_le whole]
  · rw [if_neg whole, if_neg whole, List.append_nil]

theorem isBoundary_iff :
    isBoundary s n = true ↔ ∃ front : String, front.toList <+: s.toList ∧ front.utf8ByteSize = n := by
  rw [isBoundary, String.Pos.Raw.isValid_eq_true_iff, String.Pos.Raw.isValid_iff_exists_append]
  constructor
  · rintro ⟨front, back, rfl, here⟩
    refine ⟨front, ?_, (congrArg String.Pos.Raw.byteIdx here).symm⟩
    rw [String.toList_append]
    exact List.prefix_append _ _
  · rintro ⟨front, ⟨back, whole⟩, rfl⟩
    refine ⟨front, String.ofList back, ?_, rfl⟩
    rw [← String.toList_inj, String.toList_append, String.toList_ofList, whole]

/-- What a text is cut down to at byte `n` is its prefix of this size. -/
theorem front?_eq_some_iff :
    front? s n = some front ↔ front.toList <+: s.toList ∧ front.utf8ByteSize = n := by
  unfold front?
  by_cases boundary : isBoundary s n
  · rw [dif_pos boundary, Option.some_inj, String.copy_sliceTo_eq_iff_exists_splits]
    constructor
    · rintro ⟨back, splits⟩
      refine ⟨⟨back.toList, ?_⟩, ?_⟩
      · rw [← String.toList_append, ← splits.eq_append]
      · have size := splits.offset_eq_rawEndPos
        rw [String.offset_pos] at size
        exact (congrArg String.Pos.Raw.byteIdx size).symm
    · rintro ⟨⟨back, whole⟩, rfl⟩
      refine ⟨String.ofList back, ?_, String.offset_pos⟩
      rw [← String.toList_inj, String.toList_append, String.toList_ofList, whole]
  · rw [dif_neg boundary]
    constructor
    · exact fun uncut => absurd uncut.symm (Option.some_ne_none front)
    · exact fun cut => absurd (isBoundary_iff.2 ⟨front, cut⟩) boundary

/-- The search ends at the greatest boundary that is not beyond its start. -/
theorem lastBoundary?_eq_some_iff : lastBoundary? s n = some m ↔
    isBoundary s m = true ∧ m ≤ n ∧ ∀ k ≤ n, isBoundary s k = true → k ≤ m := by
  -- The search stops where it starts, or goes on as if from the byte before, which is no loss as
  -- the start is no boundary then.
  induction n with
  | zero =>
    rw [lastBoundary?, if_pos (isBoundary_zero s), Option.some_inj]
    constructor
    · rintro rfl
      exact ⟨isBoundary_zero s, Nat.le_refl 0, fun k within _ => within⟩
    · rintro ⟨-, within, -⟩
      exact (Nat.le_zero.1 within).symm
  | succ n ih =>
    rw [lastBoundary?]
    by_cases here : isBoundary s (n + 1)
    · rw [if_pos here, Option.some_inj]
      constructor
      · rintro rfl
        exact ⟨here, Nat.le_refl _, fun k within _ => within⟩
      · rintro ⟨-, within, greatest⟩
        exact Nat.le_antisymm (greatest (n + 1) (Nat.le_refl _) here) within
    · rw [if_neg here, ih]
      constructor
      · rintro ⟨boundary, within, greatest⟩
        refine ⟨boundary, Nat.le_succ_of_le within, fun k le other => ?_⟩
        have apart : k ≠ n + 1 := fun same => here (same ▸ other)
        exact greatest k (by omega) other
      · rintro ⟨boundary, within, greatest⟩
        have apart : m ≠ n + 1 := fun same => here (same ▸ boundary)
        exact ⟨boundary, by omega, fun k le => greatest k (Nat.le_succ_of_le le)⟩

/-- The search ends behind the longest prefix that fits. -/
theorem lastBoundary?_eq (s : String) (n : Nat) :
    lastBoundary? s n = some (utf8Len (takeBytes n s.toList)) := by
  rw [lastBoundary?_eq_some_iff]
  refine ⟨isBoundary_iff.2 ⟨String.ofList (takeBytes n s.toList), ?_, String.utf8ByteSize_ofList _⟩,
    utf8Len_takeBytes_le n s.toList, fun k le boundary => ?_⟩
  · rw [String.toList_ofList]
    exact prefix_takeBytes n s.toList
  · -- A boundary up to `n` is the size of a prefix that fits, and the longest one begins with that.
    obtain ⟨front, within, rfl⟩ := isBoundary_iff.1 boundary
    rw [← String.utf8Len_toList] at le ⊢
    exact String.utf8Len_le_of_prefix (prefix_takeBytes_iff.2 ⟨within, le⟩)

/-- What is cut there is that prefix. -/
theorem front?_takeBytes (s : String) (n : Nat) :
    front? s (utf8Len (takeBytes n s.toList)) = some (String.ofList (takeBytes n s.toList)) := by
  rw [front?_eq_some_iff, String.toList_ofList]
  exact ⟨prefix_takeBytes n s.toList, String.utf8ByteSize_ofList _⟩

/-- From within a text the search takes at most three steps. -/
theorem lastBoundary?_near (long : n ≤ s.utf8ByteSize) :
    ∃ steps ≤ 3, lastBoundary? s n = some (n - steps) := by
  have within := utf8Len_takeBytes_le n s.toList
  have near : n ≤ utf8Len (takeBytes n s.toList) + 3 := by
    refine le_utf8Len_takeBytes ?_
    rwa [String.utf8Len_toList]
  refine ⟨n - utf8Len (takeBytes n s.toList), by omega, ?_⟩
  rw [Nat.sub_sub_self within]
  exact lastBoundary?_eq s n

/-- From the last byte of a character of four it takes all of them. -/
example : lastBoundary? "a😀" 4 = some 1 := by decide

theorem excerpt_eq_ite (s : String) : excerpt s =
    if s.utf8ByteSize ≤ limit then s
    else String.ofList (takeBytes limit s.toList) ++ "..." := by
  refine Option.get_of_eq_some _ ?_
  unfold excerpt?
  by_cases fits : s.utf8ByteSize ≤ limit
  · rw [if_pos fits, if_pos fits]
  · rw [if_neg fits, if_neg fits, lastBoundary?_eq, Option.bind_some, front?_takeBytes,
      Option.map_some]

/-- A text of at most 2048 bytes is its own excerpt. In a longer one a place to cut is found in at
most three steps back from there. The text is cut between two characters, so as to keep exactly
the prefixes that fit, and three dots follow. -/
theorem excerpt_longest_prefix (s : String) :
    if s.utf8ByteSize ≤ 2048 then excerpt s = s
    else ∃ steps ≤ 3, ∃ kept : String,
      lastBoundary? s 2048 = some (2048 - steps) ∧ front? s (2048 - steps) = some kept ∧
      excerpt s = kept ++ "..." ∧
      ∀ front : String, front.toList <+: kept.toList ↔
        front.toList <+: s.toList ∧ front.utf8ByteSize ≤ 2048 := by
  by_cases fits : s.utf8ByteSize ≤ 2048
  · rw [if_pos fits, excerpt_eq_ite]
    exact if_pos fits
  · rw [if_neg fits]
    obtain ⟨steps, few, found⟩ := lastBoundary?_near (n := 2048) (s := s) (by omega)
    have place : 2048 - steps = utf8Len (takeBytes 2048 s.toList) :=
      Option.some.inj (found.symm.trans (lastBoundary?_eq s 2048))
    refine ⟨steps, few, String.ofList (takeBytes 2048 s.toList), found, ?_, ?_, fun front => ?_⟩
    · rw [place]
      exact front?_takeBytes s 2048
    · rw [excerpt_eq_ite]
      exact if_neg fits
    · rw [String.toList_ofList, prefix_takeBytes_iff, String.utf8Len_toList]

end DelegatedFetch.Excerpt
