import DelegatedFetch.Proofs.Signing.Agreement

/-!
# Signing loses and disturbs nothing

Each placement writes to one part of a request, and to the query what the
header does not carry. All else stays as the caller sent it, and what the caller
had in the written part stands before what was added. A verifier reads each of
the caller's parameters again, each extra one, and one of each that signing
makes up.

Only the headers of one name may be replaced. An authorization header of the
caller's is lost where the header is the placement; elsewhere its parameters are
read beside the others, so the last result asks for none.
-/

namespace DelegatedFetch

/-- The header that placing parameters sets, if it sets one. -/
def Placement.header? (p : Placement) (r : Request) : Option String :=
  match p with
  | authHeader => some "Authorization"
  | uriQuery => none
  | postBody => if r.isForm then none else some "Content-Type"

/-- The headers but those of a name. -/
def Headers.without (hs : Headers) (name : Option String) : Headers :=
  hs.filter fun h => !name.any (sameName h.1)

theorem Headers.without_none (hs : Headers) : hs.without none = hs :=
  List.filter_eq_self.2 fun _ _ => rfl

/-- Setting a header keeps the others, and their order. -/
theorem Headers.without_set (hs : Headers) (name value : String) :
    (hs.set name value).without (some name) = hs.without (some name) := by
  have self : sameName name name = true := sameName_iff.2 rfl
  simp [Headers.without, Headers.set, List.filter_append, List.filter_filter, self]

namespace Request

variable {r signed : Request} {c : Credentials} {extra : Pairs} {p : Placement} {ps : Pairs}

/-- What the caller sent is in the signed request: the method and each part of the URL but the query
are the same, the query and the body go on where the caller's ended, and other headers than the one
that is set keep their values and order. -/
structure Conserves (p : Placement) (r signed : Request) : Prop where
  method : signed.method = r.method
  url : signed.url = { r.url with query := signed.url.query }
  query : r.url.queryPairs <+: signed.url.queryPairs
  body : r.body <+: signed.body
  headers : signed.headers.without (p.header? r) = r.headers.without (p.header? r)

/-- Parameters were added at the placement only. Beside the header, the query gets those that do not
belong to the protocol proper. -/
def Confined (p : Placement) (r signed : Request) : Prop :=
  match p with
  | .authHeader =>
    signed.body = r.body ∧ ∃ added : Pairs, signed.url.queryPairs = r.url.queryPairs ++ added ∧
      ∀ q ∈ added, Parameter.isProtocol q.1 = false
  | .uriQuery => signed.headers = r.headers ∧ signed.body = r.body
  | .postBody => signed.url = r.url

theorem url_place : (r.place ps p).url = { r.url with query := (r.place ps p).url.query } := by
  cases p with
  | authHeader =>
    simp only [place]
    split <;> rfl
  | uriQuery => rfl
  | postBody =>
    rw [place_postBody]
    split <;> rfl

theorem prefix_grownBody (r : Request) (ps : Pairs) : r.body <+: r.grownBody ps := by
  rw [grownBody]
  split
  · rename_i empty
    rw [List.isEmpty_iff.1 empty]
    exact List.nil_prefix
  · exact List.prefix_append _ _

theorem conserves_place (r : Request) (ps : Pairs) (p : Placement) :
    Conserves p r (r.place ps p) := by
  have method := (place_frame r ps p).1
  cases p with
  | authHeader =>
    obtain ⟨url, placed, query, -⟩ := place_authHeader r ps
    refine ⟨method, url_place, ?_, ?_, ?_⟩
    · rw [placed]
      exact ⟨_, query.symm⟩
    · rw [placed]
      exact List.prefix_rfl
    · rw [placed]
      exact Headers.without_set _ _ _
  | uriQuery => exact ⟨method, rfl, ⟨ps, queryPairs_place_uriQuery.symm⟩, List.prefix_rfl, rfl⟩
  | postBody =>
    refine ⟨method, url_place, ?_, ?_, ?_⟩
    · exact ⟨[], by rw [List.append_nil, queryPairs_place_postBody]⟩
    · rw [place_postBody]
      split <;> exact prefix_grownBody r ps
    · by_cases form : r.isForm = true
      · simp only [place_postBody, form, if_true]
      · simp only [place_postBody, Placement.header?, form, Bool.false_eq_true, if_false]
        exact Headers.without_set _ _ _

theorem confined_place (r : Request) (ps : Pairs) (p : Placement) :
    Confined p r (r.place ps p) := by
  cases p with
  | authHeader =>
    obtain ⟨url, placed, query, -⟩ := place_authHeader r ps
    rw [placed]
    refine ⟨rfl, _, query, ?_⟩
    intro q hq
    simpa using (List.mem_filter.1 hq).2
  | uriQuery => exact ⟨rfl, rfl⟩
  | postBody =>
    change (r.place ps .postBody).url = r.url
    rw [place_postBody]
    split <;> rfl

/-- The signature aside, all that a caller sent and all that was added is signed. -/
theorem signedPairs_added (own : ∀ q ∈ r.ownPairs, Parameter.isProtocol q.1 = false)
    (fit : ExtraFit extra) (stamp : Stamp) (signature : String) :
    BaseString.signedPairs
        (r.ownPairs ++ (r.addedPairs c extra stamp ++ [(Parameter.signature, signature)])) =
      r.ownPairs ++ r.addedPairs c extra stamp := by
  have callers : BaseString.signedPairs r.ownPairs = r.ownPairs := by
    refine List.filter_eq_self.2 fun q hq => bne_iff_ne.2 fun name => ?_
    have protocol := own q hq
    rw [name] at protocol
    exact absurd protocol (by decide)
  have added : BaseString.signedPairs (r.addedPairs c extra stamp) = r.addedPairs c extra stamp :=
    List.filter_eq_self.2 fun q hq => bne_iff_ne.2 (unsigned_of_extraFit fit stamp q hq)
  have last : BaseString.signedPairs [(Parameter.signature, signature)] = [] := by
    simp [BaseString.signedPairs]
  rw [BaseString.signedPairs] at callers added last ⊢
  rw [List.filter_append, List.filter_append, callers, added, last, List.append_nil]

/-- The parameters that signing makes up: five that are always there, the token if there is one, and
the digest of a body that is no form. -/
def generatedPairs (r : Request) (c : Credentials) (stamp : Stamp) : Pairs :=
  [("oauth_consumer_key", c.consumerKey), ("oauth_signature_method", c.secret.method.word),
    ("oauth_timestamp", toString stamp.timestamp), ("oauth_nonce", stamp.nonce),
    ("oauth_version", "1.0")] ++
  (c.token.map fun token => ("oauth_token", token)).toList ++
  if r.body ≠ [] ∧ r.isForm = false then [("oauth_body_hash", Signature.bodyHash r.body)] else []

theorem addedPairs_perm (r : Request) (c : Credentials) (extra : Pairs) (stamp : Stamp) :
    (r.addedPairs c extra stamp).Perm (extra ++ r.generatedPairs c stamp) := by
  have hash : (if !r.body.isEmpty && !r.isForm then
      [(Parameter.bodyHash, Signature.bodyHash r.body)] else []) =
      if r.body ≠ [] ∧ r.isForm = false then
        [("oauth_body_hash", Signature.bodyHash r.body)] else [] := by
    simp [Parameter.bodyHash]
  rw [addedPairs, generatedPairs, hash]
  apply List.perm_iff_count.2
  intro q
  simp only [List.count_append, List.count_cons, List.count_nil, Parameter.consumerKey,
    Parameter.token, Parameter.signatureMethod, Parameter.timestamp, Parameter.nonce,
    Parameter.version]
  omega

/-- A verifier reads what the caller sent, the extra parameters and the generated ones. -/
theorem exists_parse_place (stamp : Stamp) (signature : String)
    (own : ∀ q ∈ r.ownPairs, Parameter.isProtocol q.1 = false) (fit : ExtraFit extra)
    (header : p = .authHeader ∨ r.headerPairs = []) (fits : p.fits r = true) :
    ∃ s, SignedParameters.parse
        (r.place (r.addedPairs c extra stamp ++ [(Parameter.signature, signature)]) p) = .ok s ∧
      s.placement = p ∧
      s.pairs.Perm (r.url.queryPairs ++ r.formPairs ++ extra ++ r.generatedPairs c stamp) := by
  obtain ⟨pairs, parsed⟩ := parse_place (c := c) stamp signature own fit header fits
  have named := named_of_extraFit (r := r) (c := c) fit stamp signature
  have signed := BaseString.signedPairs_perm (allPairs_place fits named header)
  rw [signedPairs_added own fit, ← (parse_eq_ok_iff.1 parsed).pairs] at signed
  refine ⟨_, parsed, rfl, signed.trans ?_⟩
  rw [ownPairs, List.append_assoc _ extra]
  exact (addedPairs_perm r c extra stamp).append_left _

/-- A signed request has all that the caller sent where the caller sent it, and more at the placement
only. What is read of it, the signature aside, is what the caller sent, the extra parameters and one
of each that signing makes up, each as often. -/
theorem sign_conserves {clock : Clock} {entropy : Entropy} (clean : r.checkCaller = .ok ())
    (fit : ExtraFit extra) (h : (r.sign c extra p clock entropy).1 = .ok signed) :
    Conserves p r signed ∧ Confined p r signed ∧
      (p = .authHeader ∨ ¬ r.HasOAuthHeader → ∃ s, SignedParameters.parse signed = .ok s ∧
        s.placement = p ∧
        s.pairs.Perm (r.url.queryPairs ++ r.formPairs ++ extra ++
          r.generatedPairs c (Stamp.fresh clock entropy).1)) := by
  obtain ⟨fits, made⟩ := signWith_of_sign h
  obtain ⟨signature, -, rfl⟩ := signWith_eq_ok made
  refine ⟨?_, ?_, ?_⟩
  · have kept := conserves_place { r with followRedirects := false }
      (r.addedPairs c extra (Stamp.fresh clock entropy).1 ++ [(Parameter.signature, signature)]) p
    exact ⟨kept.method, kept.url, kept.query, kept.body, kept.headers⟩
  · have confined := confined_place { r with followRedirects := false }
      (r.addedPairs c extra (Stamp.fresh clock entropy).1 ++ [(Parameter.signature, signature)]) p
    cases p <;> exact confined
  · intro header
    exact exists_parse_place (r := { r with followRedirects := false }) _ signature
      (isProtocol_own clean) fit (header.imp_right headerPairs_of_not_hasOAuthHeader) fits

/-- A form that grows, beside a header that stays: each pair of the caller's is read again, and a
repeated one twice. -/
theorem sign_conserves_form :
    let r : Request := setHeader ⟨.post, ⟨"http", "", "", some (.domain "photos.example"), none, "/",
      some "a=1&a=1", none⟩, [("X-Note", "n")], Utf8.encode "b=2", true⟩
      "Content-Type" formContentType
    let c : Credentials := ⟨"key", .hmac "secret", some "token", none⟩
    ∃ signed, (r.sign c [(Parameter.verifier, "v")] .postBody ⟨0, 0⟩ ⟨fun _ => 0, 0⟩).1 =
        .ok signed ∧ signed.headers = r.headers ∧ r.body <+: signed.body ∧
      ∃ s, SignedParameters.parse signed = .ok s ∧
        s.pairs.Perm ([("a", "1"), ("a", "1"), ("b", "2"), ("oauth_verifier", "v")] ++
          r.generatedPairs c ⟨0, "00000000000000000000000000000000"⟩) := by
  intro r c
  have form : r.isForm = true := isForm_setHeader_contentType
  have query : r.url.queryPairs = [("a", "1"), ("a", "1")] := by decide +kernel
  have body : r.formPairs = [("b", "2")] := by
    rw [formPairs, if_pos form]
    decide +kernel
  have clean : r.checkCaller = .ok () := by
    rw [checkCaller_eq_ok_iff, ownPairs, query, body]
    decide +kernel
  have fit : ExtraFit [(Parameter.verifier, "v")] := by
    intro q hq
    rw [List.mem_singleton.1 hq]
    decide
  have fits : Placement.postBody.fits r = true := by
    rw [Placement.fits, form]
    decide +kernel
  obtain ⟨signed, made⟩ : ∃ signed,
      (r.sign c [(Parameter.verifier, "v")] .postBody ⟨0, 0⟩ ⟨fun _ => 0, 0⟩).1 = .ok signed := by
    rw [sign, if_pos fits]
    exact exists_signWith_iff.2 trivial
  obtain ⟨kept, -, read⟩ := sign_conserves clean fit made
  obtain ⟨s, parsed, -, perm⟩ := read (.inr (by decide +kernel))
  have headers := kept.headers
  simp only [Placement.header?, form, if_true, Headers.without_none] at headers
  have stamp : (Stamp.fresh ⟨0, 0⟩ ⟨fun _ => 0, 0⟩).1 =
      ⟨0, "00000000000000000000000000000000"⟩ := by decide +kernel
  rw [query, body, stamp] at perm
  exact ⟨signed, made, headers, kept.body, s, parsed, perm⟩

end Request
end DelegatedFetch
