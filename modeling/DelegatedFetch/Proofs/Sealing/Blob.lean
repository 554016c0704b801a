import DelegatedFetch.Proofs.Text.Base64
import DelegatedFetch.Sealing.Crypter

/-!
# What opens, and what does not

What a crypter has sealed under a nonce of the right length, it opens, and it
opens nothing else: a text that opens is, blanks around it aside, the text that
sealing makes of what it opens to. Nothing is used of the block cipher: the key
stream is the same both times, and so is the tag, which is made of what travels.
So nothing is said here of how hard it is to make such a text without the key.
-/

namespace DelegatedFetch

namespace Gcm

variable {cipher : Bytes → Bytes} {nonce aad : Bytes}

@[simp] theorem length_crypt (text : Bytes) : (crypt cipher nonce text).length = text.length :=
  Bytes.length_mask _ _

@[simp] theorem length_tag (text : Bytes) : (tag cipher nonce aad text).length = 16 := by
  rw [tag, Bytes.length_mask, toBytes, Bytes.length_ofNat]

theorem crypt_crypt (text : Bytes) : crypt cipher nonce (crypt cipher nonce text) = text := by
  rw [crypt, length_crypt, crypt, Bytes.mask_mask]

theorem length_encrypt (plain : Bytes) :
    (encrypt cipher nonce aad plain).length = plain.length + 16 := by
  rw [encrypt, List.length_append, length_crypt, length_tag]

theorem decrypt?_encrypt (plain : Bytes) :
    decrypt? cipher nonce aad (encrypt cipher nonce aad plain) = some plain := by
  have cut : (encrypt cipher nonce aad plain).length - 16 = (crypt cipher nonce plain).length := by
    rw [length_encrypt, length_crypt, Nat.add_sub_cancel]
  have long : 16 ≤ (encrypt cipher nonce aad plain).length := by
    rw [length_encrypt]
    exact Nat.le_add_left 16 _
  rw [decrypt?, cut]
  simp only [long, true_and]
  rw [encrypt, List.take_left, List.drop_left, if_pos rfl, crypt_crypt]

/-- What decrypts to a plain text is what that text encrypts to, tag and all. -/
theorem decrypt?_eq_some_iff {sealed plain : Bytes} :
    decrypt? cipher nonce aad sealed = some plain ↔ sealed = encrypt cipher nonce aad plain := by
  constructor
  · intro opened
    rw [decrypt?] at opened
    split at opened
    · rename_i accepted
      obtain rfl := Option.some.inj opened
      rw [encrypt, crypt_crypt, ← accepted.2, List.take_append_drop]
    · cases opened
  · rintro rfl
    exact decrypt?_encrypt plain

end Gcm

namespace Crypter

/-- No character of a blob is a blank. -/
theorem not_isBlank_of_mem_encodeChars {b : Bytes} :
    ∀ c ∈ Base64.encodeChars Base64.url b, isBlank c = false := by
  have digits : ∀ n < 64, isBlank (Base64.url.digit n) = false := by decide
  intro c mem
  rcases Base64.mem_encodeChars mem with ⟨n, small, rfl⟩ | padding
  · exact digits n small
  · cases padding

theorem trim_encode (b : Bytes) : trim (Base64.encode Base64.url b) = Base64.encode Base64.url b := by
  rw [trim, trimWhere, Base64.encode, String.toList_ofList,
    strip_of_forall_not not_isBlank_of_mem_encodeChars]

variable (c : Crypter)

/-- What was sealed is opened. -/
theorem openBlob_sealWith {nonce : Bytes} (whole : nonce.length = nonceLength) (plain : Bytes) :
    c.openBlob (c.sealWith nonce plain) = .ok plain := by
  have long : ¬ (nonce ++ Gcm.encrypt c.cipher nonce (Utf8.encode c.label) plain).length <
      nonceLength + tagLength := by
    rw [List.length_append, Gcm.length_encrypt, whole, tagLength]
    omega
  rw [openBlob, sealWith, trim_encode, Base64.decode?_encode Base64.url_isLawful]
  simp only [if_neg long]
  rw [← whole, List.take_left, List.drop_left, Gcm.decrypt?_encrypt]

theorem openBlob_sealFresh (plain : Bytes) (entropy : Entropy) :
    c.openBlob (c.sealFresh plain entropy).1 = .ok plain :=
  c.openBlob_sealWith (Entropy.length_draw entropy nonceLength) plain

/-- A blob is never the empty text, which counts as no blob. -/
theorem sealFresh_ne_empty (plain : Bytes) (entropy : Entropy) :
    (c.sealFresh plain entropy).1 ≠ "" := by
  intro none
  have opened := c.openBlob_sealFresh plain entropy
  have short : c.openBlob "" = .error .tooShort := rfl
  rw [none, short] at opened
  cases opened

/-- The nonce that a blob was sealed under, if the blob can be read. -/
def nonceOf? (blob : String) : Option Bytes :=
  (Base64.decode? Base64.url (trim blob)).map (·.take nonceLength)

variable {c} {blob : String} {plain : Bytes}

theorem nonceOf?_of_sealed {nonce : Bytes} (whole : nonce.length = nonceLength)
    (sealed : trim blob = c.sealWith nonce plain) : nonceOf? blob = some nonce := by
  rw [nonceOf?, sealed, sealWith, Base64.decode?_encode Base64.url_isLawful, Option.map_some,
    ← whole, List.take_left]

/-- A blob opens to a plain text exactly if it is what sealing that text makes, under some nonce. -/
theorem openBlob_eq_ok_iff : c.openBlob blob = .ok plain ↔
    ∃ nonce, nonce.length = nonceLength ∧ trim blob = c.sealWith nonce plain := by
  constructor
  · intro opened
    rw [openBlob] at opened
    split at opened
    · cases opened
    rename_i raw read
    split at opened
    · cases opened
    rename_i long
    split at opened
    · rename_i decrypted
      obtain rfl := Except.ok.inj opened
      refine ⟨raw.take nonceLength, ?_, ?_⟩
      · rw [List.length_take]
        omega
      · rw [sealWith, ← Gcm.decrypt?_eq_some_iff.1 decrypted, List.take_append_drop]
        exact (Base64.decode?_eq_some_iff Base64.url_isLawful).1 read
    · cases opened
  · rintro ⟨nonce, whole, sealed⟩
    have opened := c.openBlob_sealWith whole plain
    rwa [openBlob, sealWith, trim_encode, ← sealWith, ← sealed, ← openBlob] at opened

/-- Under one nonce, a plain text has one blob, blanks around it aside. -/
theorem trim_eq_of_openBlob {blob' : String} (opened : c.openBlob blob = .ok plain)
    (opened' : c.openBlob blob' = .ok plain) (same : nonceOf? blob = nonceOf? blob') :
    trim blob = trim blob' := by
  obtain ⟨nonce, whole, sealed⟩ := openBlob_eq_ok_iff.1 opened
  obtain ⟨nonce', whole', sealed'⟩ := openBlob_eq_ok_iff.1 opened'
  rw [nonceOf?_of_sealed whole sealed, nonceOf?_of_sealed whole' sealed'] at same
  rw [sealed, sealed', Option.some.inj same]

/-- Key material that is long enough makes a crypter. It opens a text to a plain text exactly if the
text, blanks around it aside, is written for a nonce and the plain text as it is encrypted under that
nonce and the key that is derived from material and label, with the tag that is right for the label.
Under one nonce, no two such texts open to the same plain text; and a text that is not such a one is
refused. -/
theorem opens_iff_sealed {material : Bytes} (long : 16 ≤ material.length) (label : String) :
    ∃ c cipher, of material label = .ok c ∧
      cipher = Aes.encryptBlock (Aes.roundKeys
        (Sha256.hash (Utf8.encode ("gadget-oauth:" ++ label ++ ":") ++ material))) ∧
      (∀ blob plain, c.openBlob blob = .ok plain ↔
        ∃ nonce : Bytes, nonce.length = nonceLength ∧ trim blob = Base64.encode Base64.url
          (nonce ++ Gcm.encrypt cipher nonce (Utf8.encode label) plain)) ∧
      (∀ blob blob' plain, c.openBlob blob = .ok plain → c.openBlob blob' = .ok plain →
        nonceOf? blob = nonceOf? blob' → trim blob = trim blob') ∧
      ∀ blob, (∃ e, c.openBlob blob = .error e) ↔
        ∀ nonce plain, nonce.length = nonceLength → trim blob ≠ Base64.encode Base64.url
          (nonce ++ Gcm.encrypt cipher nonce (Utf8.encode label) plain) := by
  let c : Crypter := ⟨material, label, long⟩
  have derived : c.cipher = Aes.encryptBlock (Aes.roundKeys
      (Sha256.hash (Utf8.encode ("gadget-oauth:" ++ label ++ ":") ++ material))) := by
    rw [cipher, key]
  refine ⟨c, c.cipher, dif_pos long, derived, fun blob plain => openBlob_eq_ok_iff,
    fun blob blob' plain => trim_eq_of_openBlob, fun blob => ⟨?_, fun unsealed => ?_⟩⟩
  · rintro ⟨e, refused⟩ nonce plain whole sealed
    rw [openBlob_eq_ok_iff.2 ⟨nonce, whole, sealed⟩] at refused
    cases refused
  · cases opened : c.openBlob blob with
    | error e => exact ⟨e, rfl⟩
    | ok plain =>
      obtain ⟨nonce, whole, sealed⟩ := openBlob_eq_ok_iff.1 opened
      exact absurd sealed (unsealed nonce plain whole)

/-- Blanks around a blob do not matter. -/
theorem trim_blanks (b : Bytes) :
    trim (" " ++ Base64.encode Base64.url b ++ " ") = Base64.encode Base64.url b := by
  have blank : isBlank ' ' = true := by decide
  have spaced : (" " ++ Base64.encode Base64.url b ++ " ").toList =
      ' ' :: (Base64.encodeChars Base64.url b ++ [' ']) := by
    simp [String.toList_append, Base64.encode]
  rw [trim, trimWhere, spaced, strip_between blank not_isBlank_of_mem_encodeChars, Base64.encode]

/-- The shortest key material. -/
def shortMaterial : Bytes := List.replicate 16 1

/-- The blob of two bytes under that material, the label of a state and a nonce. -/
def shortBlob : String := Base64.encode Base64.url (List.replicate 12 7 ++ Gcm.encrypt
  (Aes.encryptBlock (Aes.roundKeys
    (Sha256.hash (Utf8.encode ("gadget-oauth:" ++ "state" ++ ":") ++ shortMaterial))))
  (List.replicate 12 7) (Utf8.encode "state") [0, 255])

/-- That blob opens with blanks around it, and under its nonce no other text opens to these bytes. -/
theorem opens_iff_sealed_blanks : 16 ≤ shortMaterial.length ∧
    ∃ c, of shortMaterial "state" = .ok c ∧
      c.openBlob (" " ++ shortBlob ++ " ") = .ok [0, 255] ∧
      ∀ blob, c.openBlob blob = .ok [0, 255] → nonceOf? blob = some (List.replicate 12 7) →
        trim blob = shortBlob := by
  have long : 16 ≤ shortMaterial.length := by decide
  obtain ⟨c, cipher, made, rfl, opens, unique, -⟩ := opens_iff_sealed long "state"
  have opened : c.openBlob shortBlob = .ok [0, 255] :=
    (opens _ _).2 ⟨List.replicate 12 7, rfl, trim_encode _⟩
  refine ⟨long, c, made, ?_, fun blob opened' nonce => ?_⟩
  · exact (opens _ _).2 ⟨List.replicate 12 7, rfl, trim_blanks _⟩
  · obtain rfl : ⟨shortMaterial, "state", long⟩ = c := Except.ok.inj made
    have own : nonceOf? shortBlob = some (List.replicate 12 7) :=
      nonceOf?_of_sealed (c := ⟨shortMaterial, "state", long⟩) rfl (trim_encode _)
    rw [unique blob shortBlob _ opened' opened (nonce.trans own.symm)]
    exact trim_encode _

end Crypter
end DelegatedFetch
