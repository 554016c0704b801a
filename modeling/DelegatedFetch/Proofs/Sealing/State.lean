import DelegatedFetch.Proofs.Json.RoundTrip
import DelegatedFetch.Proofs.Sealing.Blob
import DelegatedFetch.Proofs.Text.Utf8
import DelegatedFetch.Sealing.ClientState

/-!
# Reading back the state of a caller

A state is read back from its record, with every field that it had. So a
sealed state opens to the state it was made of, or, once it is too old, to
none.
-/

namespace DelegatedFetch

namespace Json

theorem fieldsNamed_append (name : String) (fs gs : List (String × Value)) :
    Value.fieldsNamed name (fs ++ gs) = Value.fieldsNamed name fs ++ Value.fieldsNamed name gs := by
  rw [Value.fieldsNamed, List.filter_append, List.map_append]
  rfl

theorem fieldsNamed_self (name : String) (v : Option Value) :
    Value.fieldsNamed name (fieldOf name v) = v.toList := by
  cases v with
  | none => rfl
  | some v => simp [Value.fieldsNamed, fieldOf]

theorem fieldsNamed_other {name other : String} (different : other ≠ name) (v : Option Value) :
    Value.fieldsNamed name (fieldOf other v) = [] := by
  cases v with
  | none => rfl
  | some v => simp [Value.fieldsNamed, fieldOf, different]

/-- A field that is there at most once is taken as it is. -/
theorem fields?_object_cons {name : String} {fields : List (String × Value)} {v : Option Value}
    (held : Value.fieldsNamed name fields = v.toList) (names : List String) :
    (Value.object fields).fields? (name :: names) =
      ((Value.object fields).fields? names).map (v :: ·) := by
  rw [Value.fields?, List.mapM_cons, held, Option.map_eq_bind]
  cases v <;> rfl

theorem optional?_text (s : Option String) : optional? Value.text? (s.map .text) = some s := by
  cases s <;> rfl

theorem toUInt64?_toNat (n : UInt64) : Decimal.toUInt64? n.toNat = some n := by
  rw [Decimal.toUInt64?, if_pos n.toNat_lt, UInt64.ofNat_toNat]

theorem optional?_uint64 (n : Option UInt64) :
    optional? Value.uint64? (n.map fun n => .natural n.toNat) = some n := by
  cases n with
  | none => rfl
  | some n =>
    change (Decimal.toUInt64? n.toNat).map some = _
    rw [toUInt64?_toNat]
    rfl

theorem fieldsPlain_append {fs gs : List (String × Value)} (first : FieldsPlain fs)
    (second : FieldsPlain gs) : FieldsPlain (fs ++ gs) := by
  induction fs with
  | nil => exact second
  | cons f fs ih =>
    rw [FieldsPlain] at first
    exact ⟨first.1, ih first.2⟩

theorem fieldsPlain_fieldOf {name : String} {v : Option Value} (plain : ∀ w ∈ v, w.IsPlain) :
    FieldsPlain (fieldOf name v) := by
  cases v with
  | none => trivial
  | some v => exact ⟨plain v rfl, trivial⟩

end Json

namespace ClientState

open Json

theorem toJson_isPlain (s : ClientState) : s.toJson.IsPlain := by
  have text (name : String) (t : Option String) : FieldsPlain (fieldOf name (t.map .text)) := by
    apply fieldsPlain_fieldOf
    intro w mem
    obtain ⟨x, -, rfl⟩ := Option.map_eq_some_iff.1 mem
    trivial
  have number (name : String) (n : Option UInt64) :
      FieldsPlain (fieldOf name (n.map fun n => .natural n.toNat)) := by
    apply fieldsPlain_fieldOf
    intro w mem
    obtain ⟨x, -, rfl⟩ := Option.map_eq_some_iff.1 mem
    trivial
  rw [toJson, Value.IsPlain]
  exact fieldsPlain_append (fieldsPlain_append (fieldsPlain_append (fieldsPlain_append
    (fieldsPlain_append (fieldsPlain_append (fieldsPlain_append (text _ _) (text _ _)) (text _ _))
    (text _ _)) (text _ _)) (number _ _)) (text _ _)) (text _ _)

/-- The fields of a state are read as they were written, present or not. -/
theorem fields?_toJson (s : ClientState) :
    s.toJson.fields? fieldNames =
      some [s.requestToken.map .text, s.requestTokenSecret.map .text, s.accessToken.map .text,
        s.accessTokenSecret.map .text, s.sessionHandle.map .text,
        s.expires.map fun e => .natural e.toNat, s.owner.map .text, s.callback.map .text] := by
  unfold toJson fieldNames
  iterate 8
    rw [fields?_object_cons (by
      simp (disch := decide) only [fieldsNamed_append, fieldsNamed_self, fieldsNamed_other,
        List.nil_append, List.append_nil]
      rfl)]
  rfl

theorem ofJson?_toJson (s : ClientState) : ofJson? s.toJson = some s := by
  rw [ofJson?, fields?_toJson]
  simp only [Option.bind_eq_bind, Option.bind_some, optional?_text, optional?_uint64]

/-- The text that is sealed tells the state, and when it was issued. -/
theorem ofEnvelope?_envelope (s : ClientState) (issued : UInt64) :
    ofEnvelope? (s.envelope issued) = some (issued, s) := by
  have plain : (Value.object [("t", .natural issued.toNat), ("s", s.toJson)]).IsPlain :=
    ⟨trivial, s.toJson_isPlain, trivial⟩
  rw [ofEnvelope?, envelope, parse?_render plain]
  have parts : (Value.object [("t", .natural issued.toNat), ("s", s.toJson)]).fields? ["t", "s"] =
      some [some (.natural issued.toNat), some s.toJson] := rfl
  simp only [Option.bind_eq_bind, Option.bind_some, parts, required?, Value.uint64?,
    toUInt64?_toNat, ofJson?_toJson]

/-- A state that a crypter has sealed opens as that state, while it is young enough. -/
theorem open?_sealed (c : Crypter) (s : ClientState) (issued : UInt64) (entropy : Entropy)
    (maxAge : Nat) (now : UInt64) :
    open? c (c.sealFresh (Utf8.encode (s.envelope issued)) entropy).1 maxAge now =
      if (Decimal.satSub now issued).toNat ≤ maxAge then some s else none := by
  rw [open?, Crypter.openBlob_sealFresh]
  simp only [Except.toOption, Option.bind_eq_bind, Option.bind_some, Utf8.decode?_encode,
    ofEnvelope?_envelope]

/-- A state that was sealed at one time and is brought at another is the same state, unless it is too
old by then. -/
theorem decode_encode_age (s : ClientState) (c : Crypter) (issued : UInt64) (entropy : Entropy)
    (maxAge : Nat) (now : UInt64) : decode c (s.encode c issued entropy).1 maxAge now =
      if now.toNat - issued.toNat ≤ maxAge then s else .empty := by
  by_cases blank : s = .empty
  · rw [encode, if_pos blank, blank, ite_self]
    rfl
  · have blob := c.sealFresh_ne_empty (Utf8.encode (s.envelope issued)) entropy
    rw [encode, if_neg blank]
    simp only [decode, open?_sealed, if_neg blob, Decimal.toNat_satSub]
    split
    · rfl
    · rfl

/-- Nothing is sealed for the empty state, and only for that. -/
theorem encode_eq_none_iff (s : ClientState) (c : Crypter) (now : UInt64) (entropy : Entropy) :
    (s.encode c now entropy).1 = none ↔ s = .empty := by
  rw [encode]
  split
  · rename_i blank
    exact ⟨fun _ => blank, fun _ => rfl⟩
  · rename_i filled
    exact ⟨nofun, fun blank => absurd blank filled⟩

/-- A state that is not empty is sealed, and what it is sealed in opens to that state until it is too
old, and also before it was sealed. Nothing is sealed for a state that is empty. -/
theorem decode_encode_eq_ite {s : ClientState} (filled : s ≠ .empty) (c : Crypter)
    (issued : UInt64) (entropy : Entropy) :
    (ClientState.empty.encode c issued entropy).1 = none ∧
    ∃ blob, (s.encode c issued entropy).1 = some blob ∧ ∀ maxAge now,
      decode c (some blob) maxAge now =
        if now.toNat - issued.toNat ≤ maxAge then s else .empty := by
  constructor
  · rw [encode, if_pos rfl]
  · obtain ⟨blob, made⟩ : ∃ blob, (s.encode c issued entropy).1 = some blob := by
      rw [encode, if_neg filled]
      exact ⟨_, rfl⟩
    refine ⟨blob, made, fun maxAge now => ?_⟩
    rw [← made, decode_encode_age]

/-- A state with texts that need escapes, an empty text, the greatest number and an absent field. -/
def laden : ClientState where
  requestToken := some "\"\\/\x00\x1f\x7f"
  requestTokenSecret := some ""
  accessToken := some "\u2028😀"
  accessTokenSecret := some "\n\t"
  sessionHandle := some "null"
  expires := some Decimal.maxUInt64
  owner := some "José"
  callback := none

/-- A crypter with the shortest key that is allowed. -/
def shortCrypter : Crypter := ⟨List.replicate 16 1, "state", by decide⟩

/-- It opens up to the age that is allowed and no longer, and also before it was sealed. -/
theorem decode_encode_eq_ite_laden : laden ≠ .empty ∧ ∃ blob,
    (laden.encode shortCrypter 5 ⟨fun _ => 0, 0⟩).1 = some blob ∧
      decode shortCrypter (some blob) 1000 1005 = laden ∧
      decode shortCrypter (some blob) 1000 1006 = .empty ∧
      decode shortCrypter (some blob) 0 0 = laden := by
  have filled : laden ≠ .empty := by decide
  obtain ⟨-, blob, made, opens⟩ := decode_encode_eq_ite filled shortCrypter 5 ⟨fun _ => 0, 0⟩
  exact ⟨filled, blob, made, opens 1000 1005, opens 1000 1006, opens 0 0⟩

/-- A text that does not open counts as no state. -/
theorem decode_of_openBlob_error {c : Crypter} {blob : String} {e : SealError}
    (foreign : c.openBlob blob = .error e) (maxAge : Nat) (now : UInt64) :
    decode c (some blob) maxAge now = .empty := by
  have closed : open? c blob maxAge now = none := by
    rw [open?, foreign]
    rfl
  rw [decode, closed, Option.getD_none, ite_self]

end ClientState
end DelegatedFetch
