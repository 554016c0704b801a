import DelegatedFetch.Proofs.Signing.Placing
import DelegatedFetch.Proofs.Signing.Verdict

/-!
# Signer and verifier agree

A signer collects parameters before it places them, a verifier after they were
placed. Both collect the same ones: nothing is lost by placing, and their order
does not matter. So a verifier recomputes the text that was signed, finds one
signature and one placement, and accepts.

What a caller may send is bounded by the check of its own parameters. The names
of extra parameters are the engine's; they must not be empty, since a form
drops parameters without a name, and they are neither the signature nor the
digest of the body.
-/

namespace DelegatedFetch

/-- A key accepts the signatures that it makes. -/
def Rsa.PrivateKey.VerifiesOwn (k : Rsa.PrivateKey) : Prop :=
  ∀ digest signature, k.sign? digest = some signature → k.toPublic.verify digest signature = true

/-- A secret whose signatures can be verified: a private key has to fit its public half. -/
def ConsumerSecret.VerifiesOwn : ConsumerSecret → Prop
  | hmac _ => True
  | rsa k => k.VerifiesOwn

/-- What verifies the signatures of a consumer and a token. Without a token, its secret is empty. -/
def Credentials.verificationKey (c : Credentials) : VerificationKey :=
  match c.secret with
  | .hmac secret => .hmac secret (c.tokenSecret.getD "")
  | .rsa k => .rsa k.toPublic

/-- A signature is base64, and what it writes is the signature of the text. -/
theorem Signature.matches?_compute {c : Credentials} {text signature : String}
    (own : c.secret.VerifiesOwn) (h : Signature.compute c text = .ok signature) :
    ∃ bytes, Base64.decode? Base64.standard signature = some bytes ∧
      Signature.matches? c.verificationKey text bytes = true := by
  rw [Signature.compute] at h
  cases hs : c.secret with
  | hmac secret =>
    simp only [hs, Except.ok.injEq] at h
    subst h
    refine ⟨_, Base64.decode?_encode Base64.standard_isLawful _, ?_⟩
    simp only [Credentials.verificationKey, hs, Signature.matches?, beq_self_eq_true]
  | rsa k =>
    simp only [hs] at h own
    split at h
    · rename_i s made
      simp only [Except.ok.injEq] at h
      subst h
      refine ⟨s, Base64.decode?_encode Base64.standard_isLawful _, ?_⟩
      simp only [Credentials.verificationKey, hs, Signature.matches?]
      exact own _ _ made
    · cases h

/-- A secret that makes signatures: a private key needs room for a padded digest. -/
def ConsumerSecret.HasRoom : ConsumerSecret → Prop
  | hmac _ => True
  | rsa k => (Rsa.sha1Header.length + 20) + 11 ≤ k.toPublic.size

/-- Whether there is a signature does not depend on the text. -/
theorem Signature.exists_compute_iff {c : Credentials} (text : String) :
    (∃ signature, Signature.compute c text = .ok signature) ↔ c.secret.HasRoom := by
  rw [Signature.compute]
  cases c.secret with
  | hmac secret => exact ⟨fun _ => trivial, fun _ => ⟨_, rfl⟩⟩
  | rsa k =>
    have length : (Rsa.sha1Header ++ Sha1.hash (Utf8.encode text)).length =
        Rsa.sha1Header.length + 20 := by
      rw [List.length_append, Sha1.length_hash]
    simp only [ConsumerSecret.HasRoom, Rsa.PrivateKey.sign?, Rsa.padded?, length]
    by_cases room : Rsa.sha1Header.length + 20 + 11 ≤ k.toPublic.size
    · simp [room]
    · simp [room]

/-- A header text is of the scheme whose parameters are read. -/
def AuthorizationHeader.HasScheme (header : String) : Prop :=
  (header.toList.take scheme.length).map Char.toLower = scheme

instance (header : String) : Decidable (AuthorizationHeader.HasScheme header) := by
  rw [AuthorizationHeader.HasScheme]
  infer_instance

/-- Extra parameters that an engine may sign: all have names, and none is the signature or the
digest of the body. -/
def ExtraFit (extra : Pairs) : Prop :=
  ∀ q ∈ extra, q.1 ≠ "" ∧ q.1 ≠ Parameter.signature ∧ q.1 ≠ Parameter.bodyHash

namespace Request

variable {r : Request} {c : Credentials} {extra : Pairs} {p : Placement} {stamp : Stamp}

/-- A request has an authorization header of the scheme that signing uses. -/
def HasOAuthHeader (r : Request) : Prop :=
  ∃ h ∈ r.headers, Headers.sameName h.1 "Authorization" = true ∧
    AuthorizationHeader.HasScheme h.2

instance (r : Request) : Decidable r.HasOAuthHeader := by
  rw [HasOAuthHeader]
  infer_instance

theorem headerPairs_of_not_hasOAuthHeader (h : ¬ r.HasOAuthHeader) : r.headerPairs = [] := by
  rw [headerPairs, Headers.first?]
  cases found : r.headers.find? (Headers.sameName ·.1 "Authorization") with
  | none => rfl
  | some header =>
    have other : ¬ AuthorizationHeader.HasScheme header.2 := fun scheme =>
      h ⟨header, List.mem_of_find?_eq_some found, by simpa using List.find?_some found, scheme⟩
    exact if_neg other

/-- The check of a caller lets through what uses no reserved name. -/
theorem checkCaller_eq_ok_iff :
    r.checkCaller = .ok () ↔ ∀ q ∈ r.ownPairs, Parameter.isReserved q.1 = false := by
  have none_iff (ps : Pairs) : (∀ q ∈ ps, Parameter.isReserved q.1 = false) ↔
      ps.find? (Parameter.isReserved ·.1) = none := by
    simp only [List.find?_eq_none, Bool.not_eq_true]
  rw [checkCaller, ownPairs, List.forall_mem_append, none_iff, none_iff]
  cases r.url.queryPairs.find? (Parameter.isReserved ·.1) with
  | some q => simp
  | none => cases r.formPairs.find? (Parameter.isReserved ·.1) <;> simp

theorem isProtocol_own (clean : r.checkCaller = .ok ()) :
    ∀ q ∈ r.ownPairs, Parameter.isProtocol q.1 = false := by
  intro q hq
  have free := checkCaller_eq_ok_iff.1 clean q hq
  rw [Bool.eq_false_iff] at free ⊢
  intro protocol
  exact free (Parameter.isReserved_of_isProtocol protocol)

/-- The names that are always added, or added for a token. -/
theorem added_names {name : String}
    (h : name ∈ [Parameter.consumerKey, Parameter.token, Parameter.signatureMethod,
      Parameter.timestamp, Parameter.nonce, Parameter.version]) :
    name ≠ "" ∧ name ≠ Parameter.signature ∧ name ≠ Parameter.bodyHash := by
  revert name
  decide

/-- Each added parameter is an extra one or one of the protocol's, and none is the signature. The
digest of a body is added for a body that is no form. -/
theorem mem_addedPairs {q : String × String} (h : q ∈ r.addedPairs c extra stamp) :
    q ∈ extra ∨ q.1 ≠ "" ∧ q.1 ≠ Parameter.signature ∧
      (q.1 = Parameter.bodyHash →
        q.2 = Signature.bodyHash r.body ∧ r.body.isEmpty = false ∧ r.isForm = false) := by
  have always (hq : q.1 ∈ [Parameter.consumerKey, Parameter.token, Parameter.signatureMethod,
      Parameter.timestamp, Parameter.nonce, Parameter.version]) :
      q.1 ≠ "" ∧ q.1 ≠ Parameter.signature ∧
        (q.1 = Parameter.bodyHash →
          q.2 = Signature.bodyHash r.body ∧ r.body.isEmpty = false ∧ r.isForm = false) := by
    obtain ⟨named, notSignature, notHash⟩ := added_names hq
    exact ⟨named, notSignature, fun hash => absurd hash notHash⟩
  simp only [addedPairs, List.mem_append, Option.mem_toList, Option.map_eq_some_iff] at h
  rcases h with (((h | h) | ⟨t, -, rfl⟩) | h) | h
  · exact .inl h
  · exact .inr (always (by simp [List.mem_singleton.1 h]))
  · exact .inr (always (by simp))
  · simp only [List.mem_cons, List.not_mem_nil, or_false] at h
    rcases h with rfl | rfl | rfl | rfl <;> exact .inr (always (by simp))
  · split at h
    · rename_i needed
      simp only [Bool.and_eq_true, Bool.not_eq_true'] at needed
      rw [List.mem_singleton.1 h]
      refine .inr ⟨?_, ?_, fun _ => ⟨rfl, needed⟩⟩
      · exact (by decide : Parameter.bodyHash ≠ "")
      · exact (by decide : Parameter.bodyHash ≠ Parameter.signature)
    · cases h

theorem consumerKey_mem_addedPairs :
    (Parameter.consumerKey, c.consumerKey) ∈ r.addedPairs c extra stamp := by
  simp [addedPairs]

theorem exists_isProtocol_added (stamp : Stamp) (signature : String) :
    ∃ q ∈ r.addedPairs c extra stamp ++ [(Parameter.signature, signature)],
      Parameter.isProtocol q.1 = true :=
  ⟨(Parameter.consumerKey, c.consumerKey), List.mem_append_left _ consumerKey_mem_addedPairs,
    (by decide : Parameter.isProtocol Parameter.consumerKey = true)⟩

/-- The protocol's parameters are found where they were placed, and nowhere else. -/
theorem carryingPlacements_place {ps : Pairs} (fits : p.fits r = true) (named : ∀ q ∈ ps, q.1 ≠ "")
    (own : ∀ q ∈ r.ownPairs, Parameter.isProtocol q.1 = false)
    (header : p = .authHeader ∨ ∀ q ∈ r.headerPairs, Parameter.isProtocol q.1 = false)
    (some : ∃ q ∈ ps, Parameter.isProtocol q.1 = true) :
    (r.place ps p).carryingPlacements = [p] := by
  have none {qs : Pairs} (h : ∀ q ∈ qs, Parameter.isProtocol q.1 = false) :
      qs.any (Parameter.isProtocol ·.1) = false :=
    List.any_eq_false.2 fun q hq => Bool.eq_false_iff.1 (h q hq)
  have query := none fun q hq => own q (List.mem_append_left _ hq)
  have form := none fun q hq => own q (List.mem_append_right _ hq)
  have placed : ps.any (Parameter.isProtocol ·.1) = true := List.any_eq_true.2 some
  have kept : (ps.filter (Parameter.isProtocol ·.1)).any (Parameter.isProtocol ·.1) = true := by
    rw [List.any_filter]
    simpa using placed
  have dropped : (ps.filter (!Parameter.isProtocol ·.1)).any (Parameter.isProtocol ·.1) = false := by
    rw [List.any_filter]
    simp
  cases p with
  | authHeader =>
    simp only [carryingPlacements, headerPairs_place_authHeader,
      queryPairs_place_authHeader, formPairs_place_of_ne (p := .authHeader) (by decide),
      List.any_append, List.filterMap_cons, List.filterMap_nil, query, form, kept, dropped,
      Bool.or_false, if_true, Bool.false_eq_true, if_false]
  | uriQuery =>
    have header := none (header.resolve_left (by decide))
    simp only [carryingPlacements, headerPairs_place_of_ne (p := .uriQuery) (by decide),
      queryPairs_place_uriQuery, formPairs_place_of_ne (p := .uriQuery) (by decide), header,
      List.any_append, List.filterMap_cons, List.filterMap_nil, query, form, placed,
      Bool.or_true, if_true, Bool.false_eq_true, if_false]
  | postBody =>
    have header := none (header.resolve_left (by decide))
    have all : ps.filter (·.1 != "") = ps :=
      List.filter_eq_self.2 fun q hq => bne_iff_ne.2 (named q hq)
    simp only [carryingPlacements, headerPairs_place_of_ne (p := .postBody) (by decide),
      queryPairs_place_postBody, formPairs_place_postBody fits, header, all,
      List.any_append, List.filterMap_cons, List.filterMap_nil, query, form, placed,
      Bool.or_true, if_true, Bool.false_eq_true, if_false]

/-- Among all parameters of a signed request, one is the signature. -/
theorem soleSignature_place {added : Pairs} {signature : String} {all : Pairs}
    (perm : all.Perm (r.ownPairs ++ (added ++ [(Parameter.signature, signature)])))
    (own : ∀ q ∈ r.ownPairs, Parameter.isProtocol q.1 = false)
    (unsigned : ∀ q ∈ added, q.1 ≠ Parameter.signature) :
    soleSignature all = .ok signature := by
  have callers : r.ownPairs.filter (·.1 == Parameter.signature) = [] := by
    rw [List.filter_eq_nil_iff]
    intro q hq name
    have protocol := own q hq
    rw [beq_iff_eq.1 name] at protocol
    exact absurd protocol (by decide)
  have others : added.filter (·.1 == Parameter.signature) = [] := by
    rw [List.filter_eq_nil_iff]
    intro q hq name
    exact unsigned q hq (beq_iff_eq.1 name)
  have one := perm.filter (·.1 == Parameter.signature)
  rw [List.filter_append, List.filter_append, callers, others, List.nil_append,
    List.nil_append] at one
  rw [soleSignature, List.perm_singleton.1 one]

/-- A body is what was signed: its digest is among the parameters only if it is no form, and then
it is placed nowhere but where the body stays as it is. -/
theorem bodyHashAgrees_place {signature : String} {pairs : Pairs} (fits : p.fits r = true)
    (members : ∀ q ∈ pairs,
      q ∈ r.ownPairs ++ (r.addedPairs c extra stamp ++ [(Parameter.signature, signature)]))
    (own : ∀ q ∈ r.ownPairs, Parameter.isProtocol q.1 = false)
    (names : ∀ q ∈ extra, q.1 ≠ Parameter.bodyHash) {ps : Pairs} :
    bodyHashAgrees pairs (r.place ps p).body = true := by
  rw [bodyHashAgrees, Pairs.first?]
  cases found : pairs.find? (·.1 == Parameter.bodyHash) with
  | none => rfl
  | some q =>
    have name : q.1 = Parameter.bodyHash := by simpa using List.find?_some found
    have isAdded : q ∈ r.addedPairs c extra stamp := by
      have member := members q (List.mem_of_find?_eq_some found)
      rw [List.mem_append, List.mem_append, List.mem_singleton] at member
      rcases member with callers | added | rfl
      · have protocol := own q callers
        rw [name] at protocol
        exact absurd protocol (by decide)
      · exact added
      · exact absurd name (by decide : Parameter.signature ≠ Parameter.bodyHash)
    obtain ⟨digest, body, form⟩ : q.2 = Signature.bodyHash r.body ∧ r.body.isEmpty = false ∧
        r.isForm = false := by
      rcases mem_addedPairs isAdded with isExtra | ⟨-, -, hash⟩
      · exact absurd name (names q isExtra)
      · exact hash name
    have same : (r.place ps p).body = r.body := by
      cases p with
      | authHeader =>
        obtain ⟨url, placed, -, -⟩ := place_authHeader r ps
        rw [placed]
        rfl
      | uriQuery => rfl
      | postBody => simp [Placement.fits, body, form] at fits
    simp only [Option.map_some, same, digest, beq_self_eq_true]

theorem named_of_extraFit (fit : ExtraFit extra) (stamp : Stamp) (signature : String) :
    ∀ q ∈ r.addedPairs c extra stamp ++ [(Parameter.signature, signature)], q.1 ≠ "" := by
  intro q hq
  rcases List.mem_append.1 hq with added | signed
  · rcases mem_addedPairs added with isExtra | ⟨named, -, -⟩
    · exact (fit q isExtra).1
    · exact named
  · rw [List.mem_singleton.1 signed]
    exact (by decide : Parameter.signature ≠ "")

theorem unsigned_of_extraFit (fit : ExtraFit extra) (stamp : Stamp) :
    ∀ q ∈ r.addedPairs c extra stamp, q.1 ≠ Parameter.signature := by
  intro q hq
  rcases mem_addedPairs hq with isExtra | ⟨-, notSignature, -⟩
  · exact (fit q isExtra).2.1
  · exact notSignature

/-- A verifier that reads a signed request finds the signature, the placement and the text. -/
theorem parse_place (stamp : Stamp) (signature : String)
    (own : ∀ q ∈ r.ownPairs, Parameter.isProtocol q.1 = false)
    (fit : ExtraFit extra) (header : p = .authHeader ∨ r.headerPairs = [])
    (fits : p.fits r = true) :
    ∃ pairs, SignedParameters.parse
        (r.place (r.addedPairs c extra stamp ++ [(Parameter.signature, signature)]) p) =
      .ok ⟨pairs, p, signature, r.baseString (r.addedPairs c extra stamp)⟩ := by
  have named := named_of_extraFit (r := r) (c := c) fit stamp signature
  have unsigned := unsigned_of_extraFit (r := r) (c := c) fit stamp
  obtain ⟨placed, hplaced⟩ : ∃ placed, placed =
    r.place (r.addedPairs c extra stamp ++ [(Parameter.signature, signature)]) p := ⟨_, rfl⟩
  have perm : placed.allPairs.Perm
      (r.ownPairs ++ (r.addedPairs c extra stamp ++ [(Parameter.signature, signature)])) :=
    hplaced ▸ allPairs_place fits named header
  have sole : placed.solePlacement = .ok p := by
    have one : placed.carryingPlacements = [p] := by
      rw [hplaced]
      refine carryingPlacements_place fits named own (header.imp_right fun none => ?_)
        (exists_isProtocol_added stamp signature)
      rw [none]
      exact List.forall_mem_nil _
    rw [solePlacement, one]
  have digest : bodyHashAgrees (BaseString.signedPairs placed.allPairs) placed.body = true := by
    have members : ∀ q ∈ BaseString.signedPairs placed.allPairs, q ∈ r.ownPairs ++
        (r.addedPairs c extra stamp ++ [(Parameter.signature, signature)]) :=
      fun q hq => perm.mem_iff.1 (List.mem_filter.1 hq).1
    rw [hplaced] at members ⊢
    exact bodyHashAgrees_place fits members own fun q hq => (fit q hq).2.2
  have text : BaseString.render placed.method placed.url
      (BaseString.signedPairs placed.allPairs) = r.baseString (r.addedPairs c extra stamp) := by
    obtain ⟨method, address, -⟩ :=
      place_frame r (r.addedPairs c extra stamp ++ [(Parameter.signature, signature)]) p
    rw [← hplaced] at method address
    rw [method, baseString]
    refine BaseString.render_eq address ?_
    have signed := BaseString.signedPairs_perm perm
    rw [BaseString.signedPairs_signedPairs]
    refine signed.trans ?_
    simp [BaseString.signedPairs]
  rw [← hplaced]
  exact ⟨_, parse_eq_ok_iff.2 ⟨sole, soleSignature_place perm own unsigned, rfl, digest, text.symm⟩⟩

/-- Signing places what it adds and the signature of all. -/
theorem signWith_eq_ok {signed : Request} (h : r.signWith c extra p stamp = .ok signed) :
    ∃ signature, Signature.compute c (r.baseString (r.addedPairs c extra stamp)) = .ok signature ∧
      signed = { r with followRedirects := false }.place
        (r.addedPairs c extra stamp ++ [(Parameter.signature, signature)]) p := by
  rw [signWith] at h
  cases made : Signature.compute c (r.baseString (r.addedPairs c extra stamp)) with
  | error e =>
    rw [made] at h
    cases h
  | ok signature =>
    rw [made] at h
    exact ⟨signature, rfl, (Except.ok.inj h).symm⟩

theorem followRedirects_signWith {signed : Request}
    (h : r.signWith c extra p stamp = .ok signed) : signed.followRedirects = false := by
  obtain ⟨signature, -, rfl⟩ := signWith_eq_ok h
  exact (place_frame _ _ p).2.2

/-- What is signed for a placement that fits is accepted, and found there. -/
theorem verify_signWith {signed : Request} (clean : r.checkCaller = .ok ())
    (verifies : c.secret.VerifiesOwn) (fit : ExtraFit extra)
    (header : p = .authHeader ∨ ¬ r.HasOAuthHeader) (fits : p.fits r = true)
    (h : r.signWith c extra p stamp = .ok signed) :
    ∃ s, signed.verify c.verificationKey = .ok s ∧ s.placement = p := by
  obtain ⟨signature, made, rfl⟩ := signWith_eq_ok h
  obtain ⟨pairs, parsed⟩ := parse_place (r := { r with followRedirects := false }) (c := c)
    stamp signature (isProtocol_own clean) fit
    (header.imp_right headerPairs_of_not_hasOAuthHeader) fits
  obtain ⟨bytes, decoded, matched⟩ := Signature.matches?_compute verifies made
  have accepted : SignedParameters.verify
      ⟨pairs, p, signature, r.baseString (r.addedPairs c extra stamp)⟩ c.verificationKey =
        .ok () := by
    simp only [SignedParameters.verify, decoded, matched, if_true]
  exact ⟨_, verify_eq_ok_iff.2 ⟨parse_eq_ok_iff.1 parsed, accepted⟩, rfl⟩

/-- Whether a request can be signed for a placement that fits depends on the secret only. -/
theorem exists_signWith_iff :
    (∃ signed, r.signWith c extra p stamp = .ok signed) ↔ c.secret.HasRoom := by
  rw [← Signature.exists_compute_iff (r.baseString (r.addedPairs c extra stamp))]
  constructor
  · rintro ⟨signed, made⟩
    obtain ⟨signature, computed, -⟩ := signWith_eq_ok made
    exact ⟨signature, computed⟩
  · rintro ⟨signature, computed⟩
    rw [signWith, computed]
    exact ⟨_, rfl⟩

theorem exists_sign_iff {clock : Clock} {entropy : Entropy} (fits : p.fits r = true) :
    (∃ signed, (r.sign c extra p clock entropy).1 = .ok signed) ↔ c.secret.HasRoom := by
  rw [sign, if_pos fits]
  exact exists_signWith_iff

theorem not_fits_of_sign_error {clock : Clock} {entropy : Entropy} {refusal : Refusal}
    (h : (r.sign c extra p clock entropy).1 = .error refusal) :
    ¬ (p.fits r = true ∧ c.secret.HasRoom) := by
  rintro ⟨fits, room⟩
  obtain ⟨signed, made⟩ : ∃ signed, (r.sign c extra p clock entropy).1 = .ok signed :=
    (exists_sign_iff fits).2 room
  rw [made] at h
  cases h

/-- A request is not signed since its body is no form, or since the key is too small. -/
theorem refusal_of_sign_error {clock : Clock} {entropy : Entropy} {refusal : Refusal}
    (h : (r.sign c extra p clock entropy).1 = .error refusal) :
    refusal = .bodyNotForm ∨ refusal = .keyTooSmall := by
  rw [sign] at h
  split at h
  · change r.signWith c extra p _ = .error refusal at h
    rw [signWith] at h
    cases computed : Signature.compute c (r.baseString (r.addedPairs c extra
        (Stamp.fresh clock entropy).1)) with
    | ok signature =>
      rw [computed] at h
      cases h
    | error refused =>
      rw [computed] at h
      obtain rfl := Except.error.inj h
      rw [Signature.compute] at computed
      split at computed
      · cases computed
      · split at computed
        · cases computed
        · exact .inr (Except.error.inj computed).symm
  · exact .inl (Except.error.inj h).symm

theorem signWith_of_sign {signed : Request} {clock : Clock} {entropy : Entropy}
    (h : (r.sign c extra p clock entropy).1 = .ok signed) :
    p.fits r = true ∧ r.signWith c extra p (Stamp.fresh clock entropy).1 = .ok signed := by
  rw [sign] at h
  split at h
  · rename_i fits
    exact ⟨fits, h⟩
  · cases h

/-- A clean request is signed and accepted, if the secret makes signatures and verifies them. -/
theorem exists_sign_accepted {clock : Clock} {entropy : Entropy} (clean : r.checkCaller = .ok ())
    (room : c.secret.HasRoom) (verifies : c.secret.VerifiesOwn) (fit : ExtraFit extra)
    (header : p = .authHeader ∨ ¬ r.HasOAuthHeader) (fits : p.fits r = true) :
    ∃ signed s, (r.sign c extra p clock entropy).1 = .ok signed ∧
      signed.verify c.verificationKey = .ok s := by
  obtain ⟨signed, made⟩ := (exists_sign_iff fits).2 room
  obtain ⟨s, accepted, -⟩ :=
    verify_signWith clean verifies fit header fits (signWith_of_sign made).2
  exact ⟨signed, s, made, accepted⟩

/-- Signer and verifier agree: a signed request is accepted under the key of its consumer and token,
and its parameters are found at the placement that was asked for. -/
theorem verify_sign {signed : Request} {clock : Clock} {entropy : Entropy}
    (clean : r.checkCaller = .ok ()) (verifies : c.secret.VerifiesOwn) (fit : ExtraFit extra)
    (header : p = .authHeader ∨ ¬ r.HasOAuthHeader)
    (h : (r.sign c extra p clock entropy).1 = .ok signed) :
    ∃ s, signed.verify c.verificationKey = .ok s ∧ s.placement = p := by
  obtain ⟨fits, made⟩ := signWith_of_sign h
  exact verify_signWith clean verifies fit header fits made

/-- An empty body becomes a form with the parameters, beside a query with a broken escape. -/
theorem verify_sign_empty_body :
    let r : Request := ⟨.post, ⟨"http", "", "", some (.domain "photos.example"), none, "/",
      some "a=%zz", none⟩, [], [], true⟩
    let c : Credentials := ⟨"key", .hmac "secret", some "token", none⟩
    ∃ signed, (r.sign c [(Parameter.verifier, "")] .postBody ⟨0, 0⟩ ⟨fun _ => 0, 0⟩).1 = .ok signed ∧
      ∃ s, signed.verify c.verificationKey = .ok s ∧ s.placement = .postBody := by
  intro r c
  have clean : r.checkCaller = .ok () := checkCaller_eq_ok_iff.2 (by decide +kernel)
  have fit : ExtraFit [(Parameter.verifier, "")] := by
    intro q hq
    rw [List.mem_singleton.1 hq]
    decide
  exact ⟨_, rfl, verify_sign clean trivial fit (.inr (by decide)) rfl⟩

end Request
end DelegatedFetch
