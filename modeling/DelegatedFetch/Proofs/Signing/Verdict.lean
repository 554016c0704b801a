import DelegatedFetch.Proofs.Signing.BaseString
import DelegatedFetch.Proofs.Text.Base64
import DelegatedFetch.Signing.Verify

/-!
# What a verifier decides

A request is read if its protocol parameters are in one place, if one of all its
parameters is a signature, and if the body has the digest that comes with it.
Whatever is read gets a verdict. Under a shared secret one text of a signature
is accepted: since base64 is read strictly and the whole digest is compared, it
is the text that signing makes. Every other text is refused in one way, whether
it is no base64 or that of another digest.
-/

namespace DelegatedFetch

/-- What it takes to read a request, and what is read. -/
structure Reads (r : Request) (s : SignedParameters) : Prop where
  placement : r.solePlacement = .ok s.placement
  signature : soleSignature r.allPairs = .ok s.signature
  pairs : s.pairs = BaseString.signedPairs r.allPairs
  digest : bodyHashAgrees s.pairs r.body = true
  text : s.baseString = BaseString.render r.method r.url s.pairs

variable {r : Request} {s : SignedParameters}

theorem parse_eq_ok_iff : SignedParameters.parse r = .ok s ↔ Reads r s := by
  rw [SignedParameters.parse]
  constructor
  · intro h
    cases place : r.solePlacement with
    | error e =>
      rw [place] at h
      cases h
    | ok p =>
      cases sole : soleSignature r.allPairs with
      | error e =>
        rw [place, sole] at h
        cases h
      | ok signature =>
        simp only [place, sole, bind, Except.bind] at h
        split at h
        · rename_i agrees
          obtain rfl := Except.ok.inj h
          exact ⟨place, sole, rfl, agrees, rfl⟩
        · cases h
  · intro reads
    simp only [reads.placement, reads.signature, bind, Except.bind]
    rw [← reads.pairs, if_pos reads.digest, ← reads.text]
    rfl

/-- A request is accepted if it is read and the verdict on what is read is good. -/
theorem Request.verify_eq_ok_iff {key : VerificationKey} :
    r.verify key = .ok s ↔ Reads r s ∧ s.verify key = .ok () := by
  rw [verify, ← parse_eq_ok_iff]
  cases read : SignedParameters.parse r with
  | error e =>
    constructor
    · rintro ⟨⟩
    · rintro ⟨⟨⟩, -⟩
  | ok found =>
    simp only [bind, Except.bind]
    constructor
    · intro h
      cases verdict : found.verify key with
      | error e =>
        rw [verdict] at h
        cases h
      | ok _ =>
        rw [verdict] at h
        obtain rfl := Except.ok.inj h
        exact ⟨rfl, verdict⟩
    · rintro ⟨same, verdict⟩
      obtain rfl := Except.ok.inj same
      rw [verdict]
      rfl

theorem filter_of_soleSignature {ps : Pairs} {text : String} (h : soleSignature ps = .ok text) :
    ps.filter (·.1 == Parameter.signature) = [(Parameter.signature, text)] := by
  rw [soleSignature] at h
  split at h
  · cases h
  · rename_i name signature sole
    obtain rfl := Except.ok.inj h
    have member : (name, signature) ∈ ps.filter (·.1 == Parameter.signature) := by
      rw [sole]
      exact List.mem_singleton_self _
    have named : name = Parameter.signature := beq_iff_eq.1 (List.mem_filter.1 member).2
    rw [sole, named]
  · cases h

/-- The signed text tells no signature, so it does not matter whether one is dropped before. -/
theorem BaseString.render_signedPairs (method : Method) (url : Url) (ps : Pairs) :
    render method url (signedPairs ps) = render method url ps := by
  rw [render, normalize, signedPairs_signedPairs, ← normalize, ← render]

/-- Under a shared secret the digest of the text decides, as it is written in base64. -/
theorem SignedParameters.verify_hmac (consumerSecret tokenSecret : String) :
    s.verify (.hmac consumerSecret tokenSecret) =
      if s.signature = Base64.encode Base64.standard
          (Signature.sharedDigest consumerSecret tokenSecret s.baseString) then .ok ()
      else if (Base64.decode? Base64.standard s.signature).isSome then .error .signatureMismatch
      else .error .signatureNotBase64 := by
  rw [verify]
  cases read : Base64.decode? Base64.standard s.signature with
  | none =>
    have other : s.signature ≠ Base64.encode Base64.standard
        (Signature.sharedDigest consumerSecret tokenSecret s.baseString) := by
      intro same
      rw [same, Base64.decode?_encode Base64.standard_isLawful] at read
      cases read
    rw [if_neg other]
    rfl
  | some bytes =>
    have written := (Base64.decode?_eq_some_iff Base64.standard_isLawful).1 read
    simp only [Signature.matches?, Option.isSome_some, if_true, beq_iff_eq]
    by_cases same : bytes = Signature.sharedDigest consumerSecret tokenSecret s.baseString
    · rw [if_pos same, if_pos (same ▸ written)]
    · rw [if_neg same, if_neg]
      intro texts
      -- two digests with one text would be read alike
      rw [texts, Base64.decode?_encode Base64.standard_isLawful, Option.some_inj] at read
      exact same read.symm

/-- A request that is read has one signature. Under a shared secret the verdict on it is right
exactly if it is, character for character, the base64 of the HMAC of the signed text under the two
secrets, which is what signing with them makes. All else is refused as an invalid signature. -/
theorem Request.verify_eq_ok_iff_text (read : SignedParameters.parse r = .ok s)
    (consumerSecret tokenSecret : String) :
    let text := BaseString.render r.method r.url r.allPairs
    let only := Base64.encode Base64.standard (Digest.sha1.hmac
      (Utf8.encode (Percent.encode consumerSecret ++ "&" ++ Percent.encode tokenSecret))
      (Utf8.encode text))
    r.allPairs.filter (·.1 == "oauth_signature") = [("oauth_signature", s.signature)] ∧
      (s.verify (.hmac consumerSecret tokenSecret) = .ok () ↔ s.signature = only) ∧
      (s.signature ≠ only → ∃ refusal,
        s.verify (.hmac consumerSecret tokenSecret) = .error refusal ∧
          refusal.code = "signature_invalid") ∧
      ∀ c : Credentials, c.secret = .hmac consumerSecret → c.tokenSecret.getD "" = tokenSecret →
        Signature.compute c text = .ok only := by
  intro text only
  have reads := parse_eq_ok_iff.1 read
  have signed : s.baseString = text := by
    rw [reads.text, reads.pairs, BaseString.render_signedPairs]
  have verdict := s.verify_hmac consumerSecret tokenSecret
  rw [signed] at verdict
  change _ = if s.signature = only then _ else _ at verdict
  refine ⟨filter_of_soleSignature reads.signature, ?_, fun other => ?_, fun c secret token => ?_⟩
  · rw [verdict]
    constructor
    · intro accepted
      split at accepted
      · assumption
      · split at accepted <;> cases accepted
    · exact fun same => if_pos same
  · rw [verdict, if_neg other]
    split
    · exact ⟨_, rfl, rfl⟩
    · exact ⟨_, rfl, rfl⟩
  · rw [Signature.compute, secret, token]
    rfl

/-- A signature with a bit set that no byte takes up, though a lenient reader would find twenty
bytes in it, is refused under all secrets. -/
theorem Request.verify_eq_ok_iff_text_excess :
    let r : Request := ⟨.get, ⟨"http", "", "", some (.domain "photos.example"), none, "/",
      some "oauth_signature=tR3%2BTy81lMeYAr%2FFid0kMTYa%2FWN%3D", none⟩, [], [], false⟩
    ∃ s, SignedParameters.parse r = .ok s ∧ s.signature = "tR3+Ty81lMeYAr/Fid0kMTYa/WN=" ∧
      ∀ consumerSecret tokenSecret, ∃ refusal,
        s.verify (.hmac consumerSecret tokenSecret) = .error refusal ∧
          refusal.code = "signature_invalid" := by
  intro r
  have found : (SignedParameters.parse r).toOption.map (·.signature) =
      some "tR3+Ty81lMeYAr/Fid0kMTYa/WN=" := by decide +kernel
  have unread : Base64.decode? Base64.standard "tR3+Ty81lMeYAr/Fid0kMTYa/WN=" = none := by
    decide +kernel
  cases read : SignedParameters.parse r with
  | error e =>
    rw [read] at found
    cases found
  | ok s =>
    rw [read] at found
    have signature : s.signature = "tR3+Ty81lMeYAr/Fid0kMTYa/WN=" := Option.some.inj found
    refine ⟨s, rfl, signature, fun consumerSecret tokenSecret => ?_⟩
    obtain ⟨-, -, refuses, -⟩ := verify_eq_ok_iff_text read consumerSecret tokenSecret
    refine refuses fun same => ?_
    rw [← signature, same, Base64.decode?_encode Base64.standard_isLawful] at unread
    cases unread

end DelegatedFetch
