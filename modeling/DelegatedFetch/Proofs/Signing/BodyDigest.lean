import DelegatedFetch.Proofs.Signing.Agreement

/-!
# Another body

The parameters of a form are signed with all others. Any other body is no part
of the signed text; it is bound to it by its digest, which is a parameter. A
verifier asks for the digest only where one was sent, and signing sends none for
an empty body. So a body can be exchanged for those of the same digest and for
no others, unless it was empty and no digest came with it.
-/

namespace DelegatedFetch

/-- Base64 is read back, so two digests are the same if their texts are. -/
theorem Signature.bodyHash_eq_iff {a b : Bytes} :
    bodyHash a = bodyHash b ↔ Sha1.hash a = Sha1.hash b := by
  constructor
  · intro same
    rw [bodyHash, bodyHash] at same
    have read := Base64.decode?_encode Base64.standard_isLawful (Sha1.hash a)
    rw [same, Base64.decode?_encode Base64.standard_isLawful] at read
    exact (Option.some.inj read).symm
  · intro same
    rw [bodyHash, same, bodyHash]

/-- Where one body agrees with what was sent, another does if it has the same digest. If no digest
was sent, every body agrees. -/
theorem bodyHashAgrees_iff {ps : Pairs} {a : Bytes} (b : Bytes)
    (agrees : bodyHashAgrees ps a = true) :
    bodyHashAgrees ps b = true ↔
      Sha1.hash b = Sha1.hash a ∨ ∀ q ∈ ps, q.1 ≠ Parameter.bodyHash := by
  rw [bodyHashAgrees, Pairs.first?] at agrees ⊢
  cases found : ps.find? (·.1 == Parameter.bodyHash) with
  | none =>
    have absent : ∀ q ∈ ps, q.1 ≠ Parameter.bodyHash := by
      intro q hq name
      exact List.find?_eq_none.1 found q hq (beq_iff_eq.2 name)
    exact iff_of_true rfl (.inr absent)
  | some q =>
    have present : ¬ ∀ q ∈ ps, q.1 ≠ Parameter.bodyHash := fun absent =>
      absent q (List.mem_of_find?_eq_some found) (by simpa using List.find?_some found)
    rw [found] at agrees
    have digest : q.2 = Signature.bodyHash a := beq_iff_eq.1 agrees
    simp only [Option.map_some, digest, beq_iff_eq, Signature.bodyHash_eq_iff, present, or_false]
    exact eq_comm

namespace Request

variable {r signed : Request} {s : SignedParameters} {c : Credentials} {extra ps : Pairs}
  {p : Placement} {clock : Clock} {entropy : Entropy} {key : VerificationKey}

/-- No parameter is read from a body that is no form. -/
theorem pairs_withBody (noForm : r.isForm = false) (body : Bytes) :
    ({ r with body } : Request).allPairs = r.allPairs ∧
      ({ r with body } : Request).solePlacement = r.solePlacement := by
  have form : ({ r with body } : Request).formPairs = r.formPairs := by
    have still : ({ r with body } : Request).isForm = false := noForm
    rw [formPairs, formPairs, still, noForm]
    rfl
  constructor
  · rw [allPairs, form]
    rfl
  · rw [solePlacement, carryingPlacements, form]
    rfl

theorem reads_withBody (noForm : r.isForm = false) (reads : Reads r s) {body : Bytes}
    (digest : bodyHashAgrees s.pairs body = true) : Reads { r with body } s := by
  obtain ⟨all, place⟩ := pairs_withBody noForm body
  refine ⟨?_, ?_, ?_, digest, reads.text⟩
  · rw [place, reads.placement]
  · rw [all, reads.signature]
  · rw [all, reads.pairs]

/-- An accepted request is accepted with another body if the digests are the same, or if none was
sent. -/
theorem accepts_body_iff (noForm : r.isForm = false) (accepted : r.verify key = .ok s)
    (body : Bytes) :
    (∃ s', ({ r with body } : Request).verify key = .ok s') ↔
      Sha1.hash body = Sha1.hash r.body ∨ ∀ q ∈ r.allPairs, q.1 ≠ Parameter.bodyHash := by
  obtain ⟨reads, verdict⟩ := verify_eq_ok_iff.1 accepted
  have names : (∀ q ∈ s.pairs, q.1 ≠ Parameter.bodyHash) ↔
      ∀ q ∈ r.allPairs, q.1 ≠ Parameter.bodyHash := by
    rw [reads.pairs, BaseString.signedPairs]
    constructor
    · intro absent q hq name
      have kept : (q.1 != Parameter.signature) = true := by
        rw [name]
        decide
      exact absent q (List.mem_filter.2 ⟨hq, kept⟩) name
    · exact fun absent q hq => absent q (List.mem_filter.1 hq).1
  rw [← names, ← bodyHashAgrees_iff body reads.digest]
  constructor
  · rintro ⟨s', again⟩
    obtain ⟨reads', -⟩ := verify_eq_ok_iff.1 again
    have same : s'.pairs = s.pairs := by
      rw [reads'.pairs, (pairs_withBody noForm body).1, reads.pairs]
    exact same ▸ reads'.digest
  · intro digest
    exact ⟨s, verify_eq_ok_iff.2 ⟨reads_withBody noForm reads digest, verdict⟩⟩

/-- What belongs to the protocol proper is read where it was placed. -/
theorem mem_allPairs_place (elsewhere : p ≠ .postBody) {q : String × String} (hq : q ∈ ps)
    (protocol : Parameter.isProtocol q.1 = true) : q ∈ (r.place ps p).allPairs := by
  rw [allPairs, List.mem_append, List.mem_append]
  cases p with
  | authHeader =>
    rw [headerPairs_place_authHeader]
    exact .inl (.inl (List.mem_filter.2 ⟨hq, protocol⟩))
  | uriQuery =>
    rw [queryPairs_place_uriQuery]
    exact .inl (.inr (List.mem_append_right _ hq))
  | postBody => exact absurd rfl elsewhere

/-- A body that is no form and not empty is sent with its digest. -/
theorem bodyHash_mem_allPairs (elsewhere : p ≠ .postBody) (noForm : r.isForm = false)
    (body : r.body ≠ []) (h : (r.sign c extra p clock entropy).1 = .ok signed) :
    (Parameter.bodyHash, Signature.bodyHash r.body) ∈ signed.allPairs := by
  obtain ⟨-, made⟩ := signWith_of_sign h
  obtain ⟨signature, -, rfl⟩ := signWith_eq_ok made
  have needed : (!r.body.isEmpty && !r.isForm) = true := by
    simp [body, noForm]
  have added : (Parameter.bodyHash, Signature.bodyHash r.body) ∈
      r.addedPairs c extra (Stamp.fresh clock entropy).1 := by
    rw [addedPairs, if_pos needed]
    exact List.mem_append_right _ (List.mem_singleton_self _)
  exact mem_allPairs_place elsewhere (List.mem_append_left _ added)
    (by decide : Parameter.isProtocol Parameter.bodyHash = true)

/-- An empty body is sent without a digest. -/
theorem not_bodyHash_of_empty (clean : r.checkCaller = .ok ()) (fit : ExtraFit extra)
    (header : p = .authHeader ∨ ¬ r.HasOAuthHeader) (empty : r.body = [])
    (h : (r.sign c extra p clock entropy).1 = .ok signed) :
    ∀ q ∈ signed.allPairs, q.1 ≠ Parameter.bodyHash := by
  obtain ⟨fits, made⟩ := signWith_of_sign h
  obtain ⟨signature, -, rfl⟩ := signWith_eq_ok made
  have named := named_of_extraFit (r := r) (c := c) fit (Stamp.fresh clock entropy).1 signature
  have perm := allPairs_place (r := { r with followRedirects := false }) fits named
    (header.imp_right headerPairs_of_not_hasOAuthHeader)
  intro q hq name
  rw [perm.mem_iff, List.mem_append, List.mem_append, List.mem_singleton] at hq
  rcases hq with callers | added | rfl
  · have protocol := isProtocol_own clean q callers
    rw [name] at protocol
    exact absurd protocol (by decide)
  · rcases mem_addedPairs added with isExtra | ⟨-, -, hash⟩
    · exact (fit q isExtra).2.2 name
    · obtain ⟨-, nonempty, -⟩ := hash name
      rw [empty] at nonempty
      cases nonempty
  · exact absurd name (by decide : Parameter.signature ≠ Parameter.bodyHash)

theorem body_of_sign (elsewhere : p ≠ .postBody)
    (h : (r.sign c extra p clock entropy).1 = .ok signed) :
    signed.body = r.body ∧ signed.isForm = r.isForm := by
  obtain ⟨-, made⟩ := signWith_of_sign h
  obtain ⟨signature, -, rfl⟩ := signWith_eq_ok made
  exact body_place_of_ne elsewhere

/-- A signed and accepted request whose body is no form is accepted with another body exactly if the
two have the same digest, or if it was signed without a body and no digest is among its
parameters. -/
theorem exchanged_body_accepted_iff (elsewhere : p ≠ .postBody)
    (h : (r.sign c extra p clock entropy).1 = .ok signed) (noForm : signed.isForm = false)
    (accepted : signed.verify key = .ok s) (body : Bytes) :
    (∃ s', ({ signed with body } : Request).verify key = .ok s') ↔
      Sha1.hash body = Sha1.hash signed.body ∨
        signed.body = [] ∧ ∀ q ∈ signed.allPairs, q.1 ≠ "oauth_body_hash" := by
  obtain ⟨same, form⟩ := body_of_sign elsewhere h
  rw [accepts_body_iff noForm accepted]
  refine or_congr_right ⟨fun absent => ⟨?_, absent⟩, fun absent => absent.2⟩
  cases bytes : r.body with
  | nil => rw [same, bytes]
  | cons b bs =>
    have nonempty : r.body ≠ [] := by
      rw [bytes]
      exact List.cons_ne_nil b bs
    exact absurd rfl (absent _ (bodyHash_mem_allPairs elsewhere (form ▸ noForm) nonempty h))

/-- A body that was sent cannot be dropped. -/
theorem exchanged_body_accepted_iff_dropped :
    let r : Request := ⟨.post, ⟨"http", "", "", some (.domain "photos.example"), none, "/", none,
      none⟩, [], [0x7b, 0x7d], true⟩
    let c : Credentials := ⟨"key", .hmac "secret", none, none⟩
    ∃ signed, (r.sign c [] .uriQuery ⟨0, 0⟩ ⟨fun _ => 0, 0⟩).1 = .ok signed ∧
      (∃ s, signed.verify c.verificationKey = .ok s) ∧
      ¬ ∃ s, ({ signed with body := [] } : Request).verify c.verificationKey = .ok s := by
  intro r c
  have clean : r.checkCaller = .ok () := checkCaller_eq_ok_iff.2 (by decide +kernel)
  obtain ⟨signed, s, made, accepted⟩ : ∃ signed s,
      (r.sign c [] .uriQuery ⟨0, 0⟩ ⟨fun _ => 0, 0⟩).1 = .ok signed ∧
        signed.verify c.verificationKey = .ok s :=
    exists_sign_accepted clean trivial trivial (List.forall_mem_nil _) (.inr (by decide)) rfl
  obtain ⟨body, form⟩ := body_of_sign (by decide) made
  refine ⟨signed, made, ⟨s, accepted⟩, fun dropped => ?_⟩
  have apart : Sha1.hash [] ≠ Sha1.hash r.body := by decide +kernel
  rcases (exchanged_body_accepted_iff (by decide) made form accepted []).1 dropped with
    same | ⟨none, -⟩
  · rw [body] at same
    exact apart same
  · rw [body] at none
    cases none

/-- A request that was signed without a body is accepted with one. -/
theorem accepts_slipped_body :
    let r : Request := ⟨.post, ⟨"http", "", "", some (.domain "photos.example"), none, "/", none,
      none⟩, [], [], true⟩
    let c : Credentials := ⟨"key", .hmac "secret", none, none⟩
    ∃ signed, (r.sign c [] .authHeader ⟨0, 0⟩ ⟨fun _ => 0, 0⟩).1 = .ok signed ∧
      signed.isForm = false ∧ signed.body = [] ∧
      (∃ s, signed.verify c.verificationKey = .ok s) ∧
      (∃ s, ({ signed with body := [0x7b, 0x7d] } : Request).verify c.verificationKey = .ok s) ∧
      Sha1.hash [0x7b, 0x7d] ≠ Sha1.hash [] := by
  intro r c
  have clean : r.checkCaller = .ok () := checkCaller_eq_ok_iff.2 (by decide +kernel)
  have fit : ExtraFit [] := List.forall_mem_nil _
  obtain ⟨signed, s, made, accepted⟩ : ∃ signed s,
      (r.sign c [] .authHeader ⟨0, 0⟩ ⟨fun _ => 0, 0⟩).1 = .ok signed ∧
        signed.verify c.verificationKey = .ok s :=
    exists_sign_accepted clean trivial trivial fit (.inl rfl) rfl
  obtain ⟨body, form⟩ := body_of_sign (by decide) made
  have absent := not_bodyHash_of_empty clean fit (.inl rfl) rfl made
  exact ⟨signed, made, form, body, ⟨s, accepted⟩,
    (accepts_body_iff form accepted _).2 (.inr absent), by decide +kernel⟩

end Request
end DelegatedFetch
