import DelegatedFetch.Proofs.Json.Texts

/-!
# Reading back what was written

What is written for a value is read as that value, and as much of the text is
taken as was written. The exceptions are the three cases that stand for what no
record uses: they are written as null.
-/

namespace DelegatedFetch.Json

mutual

/-- No part of a value is a case that no record uses. -/
def Value.IsPlain : Value → Prop
  | .number | .brokenText | .brokenObject => False
  | .array items => ItemsPlain items
  | .object fields => FieldsPlain fields
  | _ => True

/-- All items of an array are plain. -/
def ItemsPlain : List Value → Prop
  | [] => True
  | v :: rest => v.IsPlain ∧ ItemsPlain rest

/-- All fields of an object are plain. -/
def FieldsPlain : List (String × Value) → Prop
  | [] => True
  | (_, v) :: rest => v.IsPlain ∧ FieldsPlain rest

end

theorem skipSpace_cons {c : Char} (sign : isSpace c = false) (cs : List Char) :
    skipSpace (c :: cs) = c :: cs := by
  rw [skipSpace, List.dropWhile_cons, sign]
  rfl

/-- A character that may stand at the front of a value. -/
def Starts (c : Char) : Prop := isSpace c = false ∧ c ≠ ']'

theorem starts_digit {c : Char} (digit : c.isDigit = true) : Starts c := by
  constructor
  · have each : ∀ s ∈ [' ', '\t', '\n', '\r'], c ≠ s := by
      intro s mem equal
      subst equal
      have other : ∀ s ∈ [' ', '\t', '\n', '\r'], s.isDigit = false :=
        forall_mem_of_all (by decide)
      exact absurd digit (by rw [other c mem]; decide)
    simpa [isSpace, and_assoc] using each
  · rintro rfl
    exact absurd digit (by decide)

/-- No value is written with a blank in front, or as nothing. -/
theorem starts_renderChars (v : Value) : ∃ c cs, v.renderChars = c :: cs ∧ Starts c := by
  cases v with
  | null => exact ⟨_, _, by rw [Value.renderChars]; rfl, by decide, by decide⟩
  | bool b => cases b <;> exact ⟨_, _, by rw [Value.renderChars]; rfl, by decide, by decide⟩
  | natural n =>
    rw [Value.renderChars]
    cases digits : Nat.toDigits 10 n with
    | nil => exact absurd digits Nat.toDigits_ne_nil
    | cons c cs =>
      exact ⟨c, cs, rfl, starts_digit (isDigit_of_mem_toDigits (digits ▸ List.mem_cons_self))⟩
  | number => exact ⟨_, _, by rw [Value.renderChars]; rfl, by decide, by decide⟩
  | text s => exact ⟨_, _, by rw [Value.renderChars]; rfl, by decide, by decide⟩
  | brokenText => exact ⟨_, _, by rw [Value.renderChars]; rfl, by decide, by decide⟩
  | array items => exact ⟨_, _, by rw [Value.renderChars]; rfl, by decide, by decide⟩
  | object fields => exact ⟨_, _, by rw [Value.renderChars]; rfl, by decide, by decide⟩
  | brokenObject => exact ⟨_, _, by rw [Value.renderChars]; rfl, by decide, by decide⟩

theorem renderItems_cons (v w : Value) (ws : List Value) :
    renderItems (v :: w :: ws) = v.renderChars ++ ',' :: renderItems (w :: ws) := by
  rw [renderItems]
  exact nofun

theorem renderFields_cons (name : String) (v : Value) (f : String × Value)
    (fs : List (String × Value)) : renderFields ((name, v) :: f :: fs) =
      renderText name ++ ':' :: (v.renderChars ++ ',' :: renderFields (f :: fs)) := by
  rw [renderFields, List.append_assoc]
  · rfl
  · exact nofun

theorem starts_renderItems (v : Value) (vs : List Value) :
    ∃ c cs, renderItems (v :: vs) = c :: cs ∧ Starts c := by
  obtain ⟨c, cs, written, starts⟩ := starts_renderChars v
  cases vs with
  | nil => exact ⟨c, cs, by rw [renderItems, written], starts⟩
  | cons w ws => exact ⟨c, _, by rw [renderItems_cons, written, List.cons_append], starts⟩

theorem quote_renderFields (f : String × Value) (fs : List (String × Value)) :
    ∃ cs, renderFields (f :: fs) = '"' :: cs := by
  cases fs with
  | nil => exact ⟨_, by rw [renderFields, renderText]; rfl⟩
  | cons f' fs => exact ⟨_, by rw [renderFields_cons, renderText]; rfl⟩

theorem skipSpace_render (v : Value) (rest : List Char) :
    skipSpace (v.renderChars ++ rest) = v.renderChars ++ rest := by
  obtain ⟨c, cs, written, sign, -⟩ := starts_renderChars v
  rw [written, List.cons_append, skipSpace_cons sign]

theorem renderChars_pos (v : Value) : 0 < v.renderChars.length := by
  obtain ⟨c, cs, written, -⟩ := starts_renderChars v
  rw [written]
  exact Nat.succ_pos _

theorem length_le_flatMap_renderChar (cs : List Char) :
    cs.length ≤ (cs.flatMap renderChar).length := by
  have each (c : Char) : 1 ≤ (renderChar c).length := by
    rw [renderChar]
    repeat' split
    all_goals exact Nat.succ_le_of_lt (Nat.succ_pos _)
  induction cs with
  | nil => exact Nat.le_refl 0
  | cons c cs ih =>
    rw [List.flatMap_cons, List.length_append, List.length_cons]
    have := each c
    omega

/-- A text between quotes is read whole. -/
theorem textPieces?_renderText (s : String) (rest : List Char) (fuel : Nat)
    (enough : 2 * (renderText s).length ≤ fuel) :
    ∃ inner, renderText s ++ rest = '"' :: inner ∧
      textPieces? fuel inner = some (s.toList.map Piece.char, rest) := by
  have short := length_le_flatMap_renderChar s.toList
  refine ⟨s.toList.flatMap renderChar ++ '"' :: rest, by simp [renderText], ?_⟩
  refine textPieces?_flatMap s.toList rest ?_
  simp only [renderText, List.length_append, List.length_cons, List.length_nil] at enough
  omega

theorem value?_array {fuel : Nat} {c : Char} {cs rest : List Char} {items : List Value}
    (starts : Starts c) (read : items? fuel (c :: cs) = some (items, rest)) :
    value? (fuel + 1) ('[' :: c :: cs) = some (.array items, rest) := by
  rw [value?, if_neg (by decide), if_pos rfl, skipSpace_cons starts.1]
  split
  · rename_i close
    exact absurd (List.cons.inj close).1 starts.2
  · rw [read]
    rfl

/-- A field as it is read, with a name that is a whole text. -/
def readField (field : String × Value) : Option String × Value := (some field.1, field.2)

theorem objectOf_readField (fields : List (String × Value)) :
    objectOf (fields.map readField) = .object fields := by
  have each : (fields.map readField).mapM wholeField? = some fields := by
    induction fields with
    | nil => rfl
    | cons field fields ih => simp [List.mapM_cons, ih, readField, wholeField?]
  rw [objectOf, each]
  rfl

theorem value?_object {fuel : Nat} {cs rest : List Char} {fields : List (String × Value)}
    (read : fields? fuel ('"' :: cs) = some (fields.map readField, rest)) :
    value? (fuel + 1) ('\x7b' :: '"' :: cs) = some (.object fields, rest) := by
  rw [value?, if_neg (by decide), if_neg (by decide), if_pos rfl, skipSpace_cons (by decide)]
  split
  · rename_i close
    exact absurd (List.cons.inj close).1 (by decide)
  · rw [read, ← objectOf_readField]
    rfl

/-- An item is read, and then what its separator or the end of the array asks for. -/
theorem items?_last {fuel : Nat} {cs rest : List Char} {v : Value}
    (read : value? fuel cs = some (v, ']' :: rest)) :
    items? (fuel + 1) cs = some ([v], rest) := by
  rw [items?, read]
  rfl

theorem items?_cons {fuel : Nat} {cs more rest : List Char} {v : Value} {vs : List Value}
    (read : value? fuel cs = some (v, ',' :: more)) (front : skipSpace more = more)
    (others : items? fuel more = some (vs, rest)) :
    items? (fuel + 1) cs = some (v :: vs, rest) := by
  rw [items?, read]
  simp only [Option.bind_eq_bind, Option.bind_some, skipSpace_cons (c := ',') (by decide), front,
    others]

theorem fields?_last {fuel : Nat} {cs more rest : List Char} {name : String} {v : Value}
    (named : textPieces? (fuel + 1) cs = some (name.toList.map Piece.char, ':' :: more))
    (front : skipSpace more = more) (read : value? fuel more = some (v, '\x7d' :: rest)) :
    fields? (fuel + 1) ('"' :: cs) = some ([(name, v)].map readField, rest) := by
  rw [fields?, named]
  simp only [Option.bind_eq_bind, Option.bind_some, piecesText?_chars,
    skipSpace_cons (c := ':') (by decide), front, read, skipSpace_cons (c := '\x7d') (by decide),
    List.map_cons, List.map_nil, readField]

theorem fields?_cons {fuel : Nat} {cs more others rest : List Char} {name : String} {v : Value}
    {fs : List (String × Value)}
    (named : textPieces? (fuel + 1) cs = some (name.toList.map Piece.char, ':' :: more))
    (front : skipSpace more = more) (read : value? fuel more = some (v, ',' :: others))
    (next : skipSpace others = others) (last : fields? fuel others = some (fs.map readField, rest)) :
    fields? (fuel + 1) ('"' :: cs) = some (((name, v) :: fs).map readField, rest) := by
  rw [fields?, named]
  simp only [Option.bind_eq_bind, Option.bind_some, piecesText?_chars,
    skipSpace_cons (c := ':') (by decide), front, read, skipSpace_cons (c := ',') (by decide),
    next, last, List.map_cons, readField]

theorem endsNumber_cons {c : Char} (sign : c ∈ [',', ']', '\x7d']) (rest : List Char) :
    EndsNumber (c :: rest) := by
  intro c' rest' same
  have each : ∀ c ∈ [',', ']', '\x7d'], c.isDigit = false ∧ c ≠ '.' ∧ c ≠ 'e' ∧ c ≠ 'E' :=
    forall_mem_of_all (by decide)
  exact (List.cons.inj same).1 ▸ each c sign

theorem value?_toDigits (n : Nat) {fuel : Nat} {rest : List Char} (ends : EndsNumber rest) :
    value? (fuel + 1) (Nat.toDigits 10 n ++ rest) = some (.natural n, rest) := by
  have read := unsigned?_toDigits n ends
  cases digits : Nat.toDigits 10 n with
  | nil => exact absurd digits Nat.toDigits_ne_nil
  | cons c cs =>
    have digit : c.isDigit = true := isDigit_of_mem_toDigits (digits ▸ List.mem_cons_self)
    have sign (s : Char) (other : s.isDigit = false) : c ≠ s := by
      intro same
      rw [← same, digit] at other
      exact absurd other (by decide)
    rw [digits] at read
    rw [List.cons_append, value?, if_neg (sign _ (by decide)), if_neg (sign _ (by decide)),
      if_neg (sign _ (by decide)), if_neg (sign _ (by decide)), if_pos digit]
    exact read

mutual

/-- A value is read back, and no more of the text is taken than was written for it. -/
theorem value?_renderChars : ∀ (v : Value) {fuel : Nat} {rest : List Char}, v.IsPlain →
    2 * v.renderChars.length ≤ fuel → EndsNumber rest →
    value? fuel (v.renderChars ++ rest) = some (v, rest)
  | v, 0, _, _, enough, _ => absurd (renderChars_pos v) (by omega)
  | .null, _ + 1, _, _, _, _ => by
    rw [Value.renderChars]
    rfl
  | .bool true, _ + 1, _, _, _, _ => by
    rw [Value.renderChars]
    rfl
  | .bool false, _ + 1, _, _, _, _ => by
    rw [Value.renderChars]
    rfl
  | .natural n, fuel + 1, rest, _, _, ends => by
    rw [Value.renderChars]
    exact value?_toDigits n ends
  | .text s, fuel + 1, rest, _, enough, _ => by
    rw [Value.renderChars] at enough ⊢
    obtain ⟨inner, written, read⟩ := textPieces?_renderText s rest (fuel + 1) enough
    rw [written, value?, if_pos rfl, read]
    simp only [Option.bind_eq_bind, Option.bind_some, piecesText?_chars, Option.map_some,
      Option.getD_some]
  | .array [], _ + 1, _, _, _, _ => by
    rw [Value.renderChars, renderItems]
    rfl
  | .array (v :: vs), fuel + 1, rest, plain, enough, _ => by
    rw [Value.IsPlain] at plain
    rw [Value.renderChars, List.length_append, List.length_cons, List.length_singleton] at enough
    obtain ⟨c, cs, written, starts⟩ := starts_renderItems v vs
    have read : items? fuel (renderItems (v :: vs) ++ ']' :: rest) = some (v :: vs, rest) :=
      items?_renderItems v vs plain (by omega)
    rw [written, List.cons_append] at read
    rw [Value.renderChars, written, List.append_assoc]
    exact value?_array starts read
  | .object [], _ + 1, _, _, _, _ => by
    rw [Value.renderChars, renderFields]
    rfl
  | .object ((name, v) :: fs), fuel + 1, rest, plain, enough, _ => by
    rw [Value.IsPlain] at plain
    rw [Value.renderChars, List.length_append, List.length_cons, List.length_singleton] at enough
    obtain ⟨cs, written⟩ := quote_renderFields (name, v) fs
    have read : fields? fuel (renderFields ((name, v) :: fs) ++ '\x7d' :: rest) =
        some (((name, v) :: fs).map readField, rest) :=
      fields?_renderFields name v fs plain (by omega)
    rw [written, List.cons_append] at read
    rw [Value.renderChars, written, List.append_assoc]
    exact value?_object read

theorem items?_renderItems : ∀ (v : Value) (vs : List Value) {fuel : Nat} {rest : List Char},
    ItemsPlain (v :: vs) → 2 * (renderItems (v :: vs)).length + 1 ≤ fuel →
    items? fuel (renderItems (v :: vs) ++ ']' :: rest) = some (v :: vs, rest)
  | v, vs, 0, _, _, enough => absurd enough (by omega)
  | v, [], fuel + 1, rest, plain, enough => by
    rw [ItemsPlain] at plain
    rw [renderItems] at enough ⊢
    exact items?_last (value?_renderChars v plain.1 (by omega) (endsNumber_cons (by decide) rest))
  | v, w :: ws, fuel + 1, rest, plain, enough => by
    rw [ItemsPlain] at plain
    rw [renderItems_cons, List.length_append, List.length_cons] at enough
    rw [renderItems_cons, List.append_assoc, List.cons_append]
    obtain ⟨c, cs, written, sign, -⟩ := starts_renderItems w ws
    have positive := renderChars_pos v
    refine items?_cons (value?_renderChars v plain.1 (by omega) (endsNumber_cons (by decide) _)) ?_
      (items?_renderItems w ws plain.2 (by omega))
    rw [written, List.cons_append, skipSpace_cons sign]

theorem fields?_renderFields : ∀ (name : String) (v : Value) (fs : List (String × Value))
    {fuel : Nat} {rest : List Char}, FieldsPlain ((name, v) :: fs) →
    2 * (renderFields ((name, v) :: fs)).length + 1 ≤ fuel →
    fields? fuel (renderFields ((name, v) :: fs) ++ '\x7d' :: rest) =
      some (((name, v) :: fs).map readField, rest)
  | name, v, fs, 0, _, _, enough => absurd enough (by omega)
  | name, v, [], fuel + 1, rest, plain, enough => by
    rw [FieldsPlain] at plain
    rw [renderFields, List.length_append, List.length_cons] at enough
    rw [renderFields, List.append_assoc, List.cons_append]
    obtain ⟨inner, written, named⟩ := textPieces?_renderText name
      (':' :: (v.renderChars ++ '\x7d' :: rest)) (fuel + 1) (by omega)
    rw [written]
    exact fields?_last named (skipSpace_render v _)
      (value?_renderChars v plain.1 (by omega) (endsNumber_cons (by decide) rest))
  | name, v, (name', w) :: ws, fuel + 1, rest, plain, enough => by
    rw [FieldsPlain] at plain
    rw [renderFields_cons, List.length_append, List.length_cons, List.length_append,
      List.length_cons] at enough
    rw [renderFields_cons, List.append_assoc, List.cons_append, List.append_assoc,
      List.cons_append]
    obtain ⟨inner, written, named⟩ := textPieces?_renderText name (':' :: (v.renderChars ++
      ',' :: (renderFields ((name', w) :: ws) ++ '\x7d' :: rest))) (fuel + 1) (by omega)
    obtain ⟨cs, quote⟩ := quote_renderFields (name', w) ws
    rw [written]
    refine fields?_cons named (skipSpace_render v _)
      (value?_renderChars v plain.1 (by omega) (endsNumber_cons (by decide) _)) ?_
      (fields?_renderFields name' w ws plain.2 (by omega))
    rw [quote, List.cons_append, skipSpace_cons (by decide)]

end

/-- A plain value is read back from what is written for it. -/
theorem parse?_render {v : Value} (plain : v.IsPlain) : parse? v.render = some v := by
  have front := skipSpace_render v []
  have read : value? (2 * v.renderChars.length + 2) (v.renderChars ++ []) = some (v, []) :=
    value?_renderChars v plain (Nat.le_add_right _ 2) nofun
  rw [List.append_nil] at front read
  rw [parse?, Value.render, String.toList_ofList, parseChars?, front, read]
  rfl

end DelegatedFetch.Json
