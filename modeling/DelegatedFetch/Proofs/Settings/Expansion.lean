import DelegatedFetch.Settings.Environment

/-!
# What expansion makes of a text

A reference stands in a text as `${NAME}` or `${NAME:-default}`. Expansion takes
a reference wherever one begins, as far as it reaches, and goes on behind it;
elsewhere it keeps a character and goes on behind that. These two steps say what
becomes of every text (`text_induction`), and nothing that was put in is looked
at again.

So where references stand between texts without a dollar sign, each of them is
replaced by its value, and all else stays. A text stays as it is in every
environment exactly if no reference stands in it.
-/

namespace DelegatedFetch.Environment

/-- A name that can be referred to. -/
def IsName (name : String) : Prop :=
  ∃ c cs, name.toList = c :: cs ∧ isNameStart c = true ∧ ∀ d ∈ cs, isNameChar d = true

/-- A reference as it stands in a text. Its default may hold any sign but the one that ends it. -/
structure Mention where
  name : String
  default? : Option String
  isName : IsName name
  closed : ∀ d ∈ default?, '}' ∉ d.toList

namespace Mention

/-- What stands behind the name. -/
def ending : Option String → List Char
  | none => ['}']
  | some d => ':' :: '-' :: (d.toList ++ ['}'])

def chars (m : Mention) : List Char := '$' :: '{' :: (m.name.toList ++ ending m.default?)

/-- A mention stands for what is set, even to nothing; else for its default, if it has one. -/
def value (env : Environment) (m : Mention) : String :=
  (env.find? m.name).getD (m.default?.getD "")

end Mention

open Mention

variable {env : Environment} {cs rest : List Char} {r : Reference}

/-- A run of a class of characters ends at the first one outside it. -/
theorem run_ends {p : Char → Bool} {run : List Char} (inside : ∀ c ∈ run, p c = true) {stop : Char}
    (outside : p stop = false) (rest : List Char) :
    (run ++ stop :: rest).takeWhile p = run ∧
      (run ++ stop :: rest).dropWhile p = stop :: rest := by
  have ends : ¬ p stop = true := by simp [outside]
  constructor
  · rw [List.takeWhile_append_of_pos inside, List.takeWhile_cons_of_neg ends, List.append_nil]
  · rw [List.dropWhile_append_of_pos inside, List.dropWhile_cons_of_neg ends]

/-- A default, or none, is read up to the brace that closes the reference. -/
theorem cutDefault?_ending {default? : Option String} (closed : ∀ d ∈ default?, '}' ∉ d.toList)
    (rest : List Char) :
    cutDefault? (ending default? ++ rest) = some ((default?.getD "").toList, rest) := by
  cases default? with
  | none => rfl
  | some d =>
    have inside : ∀ c ∈ d.toList, (c != '}') = true := by
      intro c mem
      rw [bne_iff_ne]
      rintro rfl
      exact closed d rfl mem
    have stop : ('}' != '}') = false := by decide
    obtain ⟨taken, left⟩ := run_ends inside stop rest
    simp only [ending, List.cons_append, List.append_assoc, List.nil_append, cutDefault?, left,
      taken, Option.getD_some]

/-- What is read behind a name is a default up to the first brace, or none. -/
theorem exists_ending_of_cutDefault? {default : List Char}
    (h : cutDefault? cs = some (default, rest)) :
    ∃ default?, (∀ d ∈ default?, '}' ∉ d.toList) ∧ cs = ending default? ++ rest ∧
      default = (default?.getD "").toList := by
  unfold cutDefault? at h
  split at h
  · obtain ⟨rfl, rfl⟩ := Prod.mk.inj (Option.some.inj h)
    exact ⟨none, nofun, rfl, rfl⟩
  · rename_i text
    split at h
    · rename_i c after found
      obtain ⟨rfl, rfl⟩ := Prod.mk.inj (Option.some.inj h)
      have brace : c = '}' := by
        have first := List.head_dropWhile_not (l := text) (· != '}') (by simp [found])
        simpa [found] using first
      have free : '}' ∉ text.takeWhile (· != '}') := by
        intro mem
        simpa using List.all_eq_true.1 List.all_takeWhile _ mem
      refine ⟨some (String.ofList (text.takeWhile (· != '}'))), ?_, ?_, ?_⟩
      · rintro d ⟨⟩
        rwa [String.toList_ofList]
      · have whole := List.takeWhile_append_dropWhile (p := (· != '}')) (l := text)
        rw [found, brace] at whole
        simp [ending, whole]
      · rw [Option.getD_some, String.toList_ofList]
    · cases h
  · cases h

/-- The first sign behind a name does not belong to it. -/
theorem head_ending (default? : Option String) (rest : List Char) :
    ∃ c cs, ending default? ++ rest = c :: cs ∧ isNameChar c = false := by
  cases default? with
  | none => exact ⟨'}', rest, rfl, by decide⟩
  | some d => exact ⟨':', _, rfl, by decide⟩

/-- What is read as a reference is what is written as one, with nothing left out of it. -/
theorem cutReference?_eq_some_iff : cutReference? cs = some (r, rest) ↔
    ∃ m : Mention, '$' :: cs = m.chars ++ rest ∧ r = ⟨m.name, m.default?.getD ""⟩ := by
  constructor
  · intro h
    unfold cutReference? at h
    split at h
    · rename_i c text
      split at h
      · rename_i start
        obtain ⟨⟨default, after⟩, cut, read⟩ := Option.map_eq_some_iff.1 h
        obtain ⟨rfl, rfl⟩ := Prod.mk.inj read
        obtain ⟨default?, closed, behind, rfl⟩ := exists_ending_of_cutDefault? cut
        have named : IsName (String.ofList (c :: text.takeWhile isNameChar)) :=
          ⟨c, _, String.toList_ofList, start, List.all_eq_true.1 List.all_takeWhile⟩
        refine ⟨⟨_, default?, named, closed⟩, ?_, ?_⟩
        · simp only [chars, String.toList_ofList, List.cons_append, List.append_assoc, ← behind,
            List.takeWhile_append_dropWhile]
        · rw [String.ofList_toList]
      · cases h
    · cases h
  · rintro ⟨m, written, rfl⟩
    obtain ⟨c, text, letters, start, inside⟩ := m.isName
    obtain ⟨d, after, behind, stop⟩ := head_ending m.default? rest
    have whole : String.ofList (c :: text) = m.name := by rw [← letters, String.ofList_toList]
    obtain ⟨taken, left⟩ := run_ends inside stop after
    rw [← behind] at taken left
    simp only [chars, letters, List.cons_append, List.append_assoc, List.cons.injEq,
      true_and] at written
    rw [written, cutReference?, if_pos start, left, taken, cutDefault?_ending m.closed,
      Option.map_some, whole]
    dsimp only
    rw [String.ofList_toList]

@[simp] theorem expandChars_nil (env : Environment) : env.expandChars [] = [] := by
  rw [expandChars]

/-- A reference is replaced by its value, whatever follows. -/
theorem expandChars_mention (env : Environment) (m : Mention) (rest : List Char) :
    env.expandChars (m.chars ++ rest) = (m.value env).toList ++ env.expandChars rest := by
  obtain ⟨text, written⟩ : ∃ text, m.chars ++ rest = '$' :: text := ⟨_, rfl⟩
  have cut := cutReference?_eq_some_iff.2 ⟨m, written.symm, rfl⟩
  rw [written, expandChars]
  split
  · rename_i found
    rw [if_pos rfl, cut] at found
    obtain ⟨rfl, rfl⟩ := Prod.mk.inj (Option.some.inj found)
    rfl
  · rename_i missing
    rw [if_pos rfl, cut] at missing
    cases missing

/-- Where no reference begins, a character is kept. -/
theorem expandChars_cons {c : Char} (free : ∀ m : Mention, ¬ m.chars <+: c :: cs) :
    env.expandChars (c :: cs) = c :: env.expandChars cs := by
  rw [expandChars]
  split
  · rename_i found
    split at found
    · rename_i dollar
      obtain ⟨m, written, -⟩ := cutReference?_eq_some_iff.1 found
      exact absurd ⟨_, by rw [dollar, written]⟩ (free m)
    · cases found
  · rfl

/-- Every text is gone through by taking references where they begin, and characters elsewhere. -/
@[elab_as_elim]
theorem text_induction {motive : List Char → Prop} (nil : motive [])
    (mention : ∀ (m : Mention) (rest : List Char), motive rest → motive (m.chars ++ rest))
    (char : ∀ (c : Char) (rest : List Char), (∀ m : Mention, ¬ m.chars <+: c :: rest) →
      motive rest → motive (c :: rest)) (cs : List Char) : motive cs := by
  -- On the length: behind a reference the text goes on more than one character later.
  induction length : cs.length using Nat.strongRecOn generalizing cs with
  | ind n ih =>
    cases cs with
    | nil => exact nil
    | cons c text =>
      by_cases begins : ∃ m : Mention, m.chars <+: c :: text
      · obtain ⟨m, rest, whole⟩ := begins
        have shorter : rest.length < n := by
          rw [← length, ← whole, List.length_append, chars, List.length_cons]
          omega
        rw [← whole]
        exact mention m rest (ih _ shorter rest rfl)
      · have shorter : text.length < n := by
          rw [← length, List.length_cons]
          exact Nat.lt_succ_self _
        exact char c text (fun m starts => begins ⟨m, starts⟩) (ih _ shorter text rfl)

/-- What stands before the first reference is kept. -/
theorem expandChars_append {before : List Char}
    (free : ∀ part, part <:+ before → part ≠ [] → ∀ m : Mention, ¬ m.chars <+: part ++ rest) :
    env.expandChars (before ++ rest) = before ++ env.expandChars rest := by
  induction before with
  | nil => rfl
  | cons c before ih =>
    have first := free (c :: before) List.suffix_rfl (List.cons_ne_nil c before)
    have later := ih fun part suffix => free part (suffix.trans (List.suffix_cons c before))
    rw [List.cons_append] at first ⊢
    rw [expandChars_cons first, later, List.cons_append]

/-- A text without a dollar sign is kept, whatever follows. -/
theorem expandChars_plain {text : List Char} (plain : '$' ∉ text) (rest : List Char) :
    env.expandChars (text ++ rest) = text ++ env.expandChars rest := by
  apply expandChars_append
  intro part suffix filled m starts
  obtain ⟨c, part, rfl⟩ := List.exists_cons_of_ne_nil filled
  obtain ⟨behind, whole⟩ := starts
  obtain ⟨rfl, -⟩ := List.cons.inj whole
  exact plain (suffix.subset List.mem_cons_self)

/-- A text in which no reference stands is kept. -/
theorem expandChars_eq_self (free : ∀ m : Mention, ¬ m.chars <:+: cs) :
    env.expandChars cs = cs := by
  have kept : env.expandChars (cs ++ []) = cs ++ env.expandChars [] := by
    apply expandChars_append
    intro part suffix _ m starts
    rw [List.append_nil] at starts
    exact free m (starts.isInfix.trans suffix.isInfix)
  simpa using kept

/-- Where nothing is set, a default comes in for a reference, and that is a part of it. -/
theorem length_value_empty (m : Mention) :
    (m.value .empty).toList.length < m.chars.length := by
  simp only [value, Table.find?_empty, Option.getD_none, chars, List.length_cons, List.length_append]
  cases m.default? with
  | none => simp [ending]
  | some d =>
    simp only [ending, Option.getD_some, List.length_cons, List.length_append]
    omega

theorem length_expandChars_empty_le (cs : List Char) :
    (expandChars .empty cs).length ≤ cs.length := by
  induction cs using text_induction with
  | nil => simp
  | mention m rest ih =>
    have shorter := length_value_empty m
    rw [expandChars_mention, List.length_append, List.length_append]
    omega
  | char c rest free ih =>
    rw [expandChars_cons free, List.length_cons, List.length_cons]
    omega

/-- Where nothing is set, a text in which a reference stands becomes shorter. -/
theorem length_expandChars_empty_lt {m : Mention} (stands : m.chars <:+: cs) :
    (expandChars .empty cs).length < cs.length := by
  induction cs using text_induction with
  | nil => simp [chars] at stands
  | mention m rest ih =>
    -- The first reference is shortened, whether it is the one in question or has it in its default.
    have shorter := length_value_empty m
    have behind := length_expandChars_empty_le rest
    rw [expandChars_mention, List.length_append, List.length_append]
    omega
  | char c rest free ih =>
    have later := ih ((List.infix_cons_iff.1 stands).resolve_left (free m))
    rw [expandChars_cons free, List.length_cons, List.length_cons]
    omega

/-- A piece of a text: one without a dollar sign, or a reference. -/
inductive Part
  | literal (text : String) (plain : '$' ∉ text.toList)
  | mention (m : Mention)

namespace Part

def text : Part → String
  | literal text _ => text
  | mention m => String.ofList m.chars

def value (env : Environment) : Part → String
  | literal text _ => text
  | mention m => m.value env

end Part

/-- Pieces are replaced one by one, whatever follows. -/
theorem expandChars_parts (env : Environment) (parts : List Part) (rest : List Char) :
    env.expandChars ((parts.map Part.text).flatMap String.toList ++ rest) =
      (parts.map (Part.value env)).flatMap String.toList ++ env.expandChars rest := by
  induction parts with
  | nil => rfl
  | cons part parts ih =>
    simp only [List.map_cons, List.flatMap_cons, List.append_assoc]
    cases part with
    | literal text plain => rw [Part.text, Part.value, expandChars_plain plain, ih]
    | mention m => rw [Part.text, Part.value, String.toList_ofList, expandChars_mention, ih]

/-- References between texts without a dollar sign are replaced by their values, which are not
looked at again; and a text stays as it is, whatever is set, exactly if no reference stands in
it. -/
theorem expand_replaces_references :
    (∀ (env : Environment) (parts : List Part),
      env.expand (String.join (parts.map Part.text)) = String.join (parts.map (Part.value env))) ∧
    ∀ s : String, (∀ env : Environment, env.expand s = s) ↔
      ∀ m : Mention, ¬ m.chars <:+: s.toList := by
  constructor
  · intro env parts
    have replaced := expandChars_parts env parts []
    rw [List.append_nil, expandChars_nil, List.append_nil] at replaced
    rw [expand, String.toList_join, replaced, ← String.toList_join, String.ofList_toList]
  intro s
  constructor
  · intro kept m stands
    have shorter := length_expandChars_empty_lt stands
    have same := congrArg String.toList (kept .empty)
    rw [expand, String.toList_ofList] at same
    rw [same] at shorter
    exact Nat.lt_irrefl _ shorter
  · intro free env
    rw [expand, expandChars_eq_self free, String.ofList_toList]

/-- A secret that looks like a reference comes through as it is. -/
example : expand (Table.ofList [("KEY", "$\x7bOTHER\x7d"), ("OTHER", "x")])
    "key $\x7bKEY\x7d, $\x7bNONE:-$\x7bOTHER\x7d" = "key $\x7bOTHER\x7d, $\x7bOTHER" := by
  cbv

end DelegatedFetch.Environment
