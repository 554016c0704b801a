import DelegatedFetch.Table

/-!
# The environment

Variables by name. A text may refer to a variable as `${NAME}`, or with a
default as `${NAME:-default}`. Expansion goes once from left to right:
what a variable brings in is not looked at again. All else stays as it is.
-/

namespace DelegatedFetch

abbrev Environment := Table String String

namespace Environment

def isNameStart (c : Char) : Bool := c.isUpper || c == '_'

def isNameChar (c : Char) : Bool := isNameStart c || c.isDigit

/-- A reference to a variable. -/
structure Reference where
  name : String
  default : String
  deriving DecidableEq, Repr

/-- The default and the rest of a text that is inside a reference, after the name. -/
def cutDefault? : List Char → Option (List Char × List Char)
  | '}' :: rest => some ([], rest)
  | ':' :: '-' :: rest =>
    match rest.dropWhile (· != '}') with
    | _ :: after => some (rest.takeWhile (· != '}'), after)
    | [] => none
  | _ => none

/-- The reference that a text begins with, after its dollar sign, and the rest. -/
def cutReference? : List Char → Option (Reference × List Char)
  | '{' :: c :: rest =>
    if isNameStart c then
      (cutDefault? (rest.dropWhile isNameChar)).map fun (default, after) =>
        (⟨String.ofList (c :: rest.takeWhile isNameChar), String.ofList default⟩, after)
    else none
  | _ => none

theorem length_cutDefault? {cs default rest : List Char}
    (h : cutDefault? cs = some (default, rest)) : rest.length < cs.length := by
  unfold cutDefault? at h
  split at h
  · simp only [Option.some.injEq, Prod.mk.injEq] at h
    simp [← h.2]
  · split at h
    · rename_i text _ _ _ hd
      have := (List.dropWhile_sublist (l := text) (· != '}')).length_le
      simp only [Option.some.injEq, Prod.mk.injEq] at h
      rw [hd] at this
      simp only [List.length_cons] at this ⊢
      rw [← h.2]
      omega
    · contradiction
  · contradiction

theorem length_cutReference? {cs rest : List Char} {r : Reference}
    (h : cutReference? cs = some (r, rest)) : rest.length < cs.length := by
  unfold cutReference? at h
  split at h
  · split at h
    · obtain ⟨⟨default, after⟩, hd, he⟩ := Option.map_eq_some_iff.1 h
      rename_i text _
      have := length_cutDefault? hd
      have hs := (List.dropWhile_sublist (l := text) isNameChar).length_le
      simp only [Prod.mk.injEq] at he
      rw [← he.2]
      simp only [List.length_cons]
      omega
    · contradiction
  · contradiction

def resolve (env : Environment) (r : Reference) : String := (env.find? r.name).getD r.default

def expandChars (env : Environment) : List Char → List Char
  | [] => []
  | c :: cs =>
    match _h : if c = '$' then cutReference? cs else none with
    | some (r, rest) => (env.resolve r).toList ++ expandChars env rest
    | none => c :: expandChars env cs
termination_by cs => cs.length
decreasing_by
  · split at _h
    · have := length_cutReference? _h
      simp only [List.length_cons]
      omega
    · contradiction
  · simp

def expand (env : Environment) (s : String) : String := String.ofList (expandChars env s.toList)

/-- The environment with variables added; those that are set already stay. -/
def setMissing (env : Environment) (vars : List (String × String)) : Environment :=
  vars.foldl (fun env (k, v) => if env.contains k then env else env.insert k v) env

end Environment
end DelegatedFetch
