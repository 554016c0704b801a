import DelegatedFetch.Text.Blank

/-!
# Redaction of secrets

A trace must not show token secrets and session handles. Wherever one of the
two names stands, in any letter case, followed by `=` or `:` (with blanks and
quotes around, as in forms, headers and JSON), the value after it is replaced
by `REMOVED`. A value ends at `&`, a comma, a quote or a blank.
-/

namespace DelegatedFetch.Redaction

def secretNames : List (List Char) :=
  ["oauth_token_secret".toList, "oauth_session_handle".toList]

/-- The letter that a character counts as when case is ignored. Besides upper case, the long s
and the Kelvin sign fold to ASCII letters. -/
def foldCase (c : Char) : Char :=
  if c = '\u017F' then 's' else if c = '\u212A' then 'k' else c.toLower

/-- What follows a name, ignoring case, if the text starts with it. -/
def after? : List Char → List Char → Option (List Char)
  | [], rest => some rest
  | n :: name, c :: rest => if foldCase c = n then after? name rest else none
  | _ :: _, [] => none

def skipQuote : List Char → List Char
  | '"' :: rest => rest
  | rest => rest

/-- What follows the sign between a name and its value, if there is one. -/
def afterSign? (text : List Char) : Option (List Char) :=
  match (skipQuote text).dropWhile isBlank with
  | c :: rest => if c = '=' ∨ c = ':' then some (skipQuote (rest.dropWhile isBlank)) else none
  | [] => none

def isValueChar (c : Char) : Bool := !(c == '&' || c == '"' || c == ',' || isBlank c)

def secretStart? (text : List Char) : Option (List Char) :=
  (secretNames.findSome? (after? · text)).bind afterSign?

theorem length_after? {name text rest : List Char} (h : after? name text = some rest) :
    rest.length + name.length = text.length := by
  induction name generalizing text with
  | nil => simp_all [after?]
  | cons n name ih =>
    cases text with
    | nil => simp [after?] at h
    | cons c text =>
      rw [after?] at h
      split at h
      · have := ih h
        simp only [List.length_cons]
        omega
      · simp at h

theorem length_skipQuote_le (text : List Char) : (skipQuote text).length ≤ text.length := by
  unfold skipQuote
  split <;> simp

theorem length_afterSign? {text rest : List Char} (h : afterSign? text = some rest) :
    rest.length < text.length := by
  unfold afterSign? at h
  have h1 := length_skipQuote_le text
  have h2 := (List.dropWhile_suffix (l := skipQuote text) isBlank).length_le
  split at h
  · next c r hd =>
    split at h
    · have h3 := length_skipQuote_le (r.dropWhile isBlank)
      have h4 := (List.dropWhile_suffix (l := r) isBlank).length_le
      rw [hd, List.length_cons] at h2
      obtain rfl := Option.some.inj h
      omega
    · simp at h
  · simp at h

theorem length_secretStart? {text rest : List Char} (h : secretStart? text = some rest) :
    rest.length < text.length := by
  obtain ⟨mid, hm, hs⟩ := Option.bind_eq_some_iff.1 h
  obtain ⟨name, _, ha⟩ := List.exists_of_findSome?_eq_some hm
  have h1 := length_after? ha
  have h2 := length_afterSign? hs
  omega

def redactChars (text : List Char) : List Char :=
  match _h : secretStart? text with
  | some rest =>
    text.take (text.length - rest.length) ++ "REMOVED".toList ++
      redactChars (rest.dropWhile isValueChar)
  | none =>
    match text with
    | [] => []
    | c :: rest => c :: redactChars rest
termination_by text.length
decreasing_by
  · have h1 := length_secretStart? _h
    have h2 := (List.dropWhile_suffix (l := rest) isValueChar).length_le
    omega
  · simp

/-- A text with the value of every secret name replaced by `REMOVED`. -/
def redact (s : String) : String := String.ofList (redactChars s.toList)

end DelegatedFetch.Redaction
