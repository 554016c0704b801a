import DelegatedFetch.Proofs.Signing.Agreement

/-!
# Which token a signed request carries

A request that was signed carries the token of the credentials that signed it,
and no other, as long as neither the caller's own parameters nor the extra ones
name a token. A caller may still write an authorization header of its own; that
one is not looked at where the header is not the placement.
-/

namespace DelegatedFetch

/-- The tokens that a list of parameters names. -/
def tokensIn (ps : Pairs) : List String := (ps.filter (·.1 == Parameter.token)).map (·.2)

theorem mem_tokensIn {ps : Pairs} {token : String} :
    token ∈ tokensIn ps ↔ (Parameter.token, token) ∈ ps := by
  simp only [tokensIn, List.mem_map, List.mem_filter, beq_iff_eq]
  constructor
  · rintro ⟨⟨name, value⟩, ⟨mem, rfl⟩, rfl⟩
    exact mem
  · intro mem
    exact ⟨_, ⟨mem, rfl⟩, rfl⟩

theorem tokensIn_append (ps qs : Pairs) : tokensIn (ps ++ qs) = tokensIn ps ++ tokensIn qs := by
  rw [tokensIn, List.filter_append, List.map_append]
  rfl

theorem tokensIn_eq_nil {ps : Pairs} (h : ∀ q ∈ ps, q.1 ≠ Parameter.token) : tokensIn ps = [] := by
  have none : ps.filter (·.1 == Parameter.token) = [] := by
    rw [List.filter_eq_nil_iff]
    intro q hq name
    exact h q hq (beq_iff_eq.1 name)
  rw [tokensIn, none, List.map_nil]

namespace Request

variable {r : Request} {c : Credentials} {extra : Pairs} {p : Placement} {stamp : Stamp}

/-- Of what signing adds, the token of the credentials is the only one. -/
theorem tokensIn_addedPairs (foreign : ∀ q ∈ extra, q.1 ≠ Parameter.token) :
    tokensIn (r.addedPairs c extra stamp) = c.token.toList := by
  have extras := tokensIn_eq_nil foreign
  have key : tokensIn [(Parameter.consumerKey, c.consumerKey)] = [] :=
    tokensIn_eq_nil (by simp; decide)
  have token : tokensIn (c.token.map fun t => (Parameter.token, t)).toList = c.token.toList := by
    cases c.token <;> rfl
  have fixed : tokensIn [(Parameter.signatureMethod, c.secret.method.word),
      (Parameter.timestamp, toString stamp.timestamp), (Parameter.nonce, stamp.nonce),
      (Parameter.version, "1.0")] = [] :=
    tokensIn_eq_nil (by simp; decide)
  have hash : tokensIn (if !r.body.isEmpty && !r.isForm then
      [(Parameter.bodyHash, Signature.bodyHash r.body)] else []) = [] := by
    split
    · exact tokensIn_eq_nil (by simp; decide)
    · rfl
  simp only [addedPairs, tokensIn_append, extras, key, token, fixed, hash, List.nil_append,
    List.append_nil]

/-- A signed request names the tokens that the caller names, and the token of its credentials. -/
theorem tokensIn_signWith_perm {signed : Request} (fit : ExtraFit extra)
    (foreign : ∀ q ∈ extra, q.1 ≠ Parameter.token) (fits : p.fits r = true)
    (h : r.signWith c extra p stamp = .ok signed) :
    (tokensIn (writtenPairs p signed)).Perm (tokensIn r.ownPairs ++ c.token.toList) := by
  obtain ⟨signature, -, rfl⟩ := signWith_eq_ok h
  have last : tokensIn [(Parameter.signature, signature)] = [] :=
    tokensIn_eq_nil (by simp; decide)
  have named := named_of_extraFit (r := r) (c := c) fit stamp signature
  have written := writtenPairs_place (r := { r with followRedirects := false }) fits named
  have all : tokensIn (r.ownPairs ++ (r.addedPairs c extra stamp ++
      [(Parameter.signature, signature)])) = tokensIn r.ownPairs ++ c.token.toList := by
    rw [tokensIn_append, tokensIn_append, tokensIn_addedPairs foreign, last, List.append_nil]
  rw [← all]
  exact (written.filter _).map _

/-- A caller that passes the check names no token. -/
theorem tokensIn_ownPairs_of_clean (clean : r.checkCaller = .ok ()) : tokensIn r.ownPairs = [] := by
  apply tokensIn_eq_nil
  intro q hq name
  have protocol := isProtocol_own clean q hq
  rw [name] at protocol
  exact absurd protocol (by decide)

/-- A signed request carries the token of its credentials and no other. -/
theorem tokensIn_signWith {signed : Request} (clean : r.checkCaller = .ok ())
    (fit : ExtraFit extra) (foreign : ∀ q ∈ extra, q.1 ≠ Parameter.token)
    (fits : p.fits r = true) (h : r.signWith c extra p stamp = .ok signed) :
    tokensIn (writtenPairs p signed) = c.token.toList := by
  have perm := tokensIn_signWith_perm fit foreign fits h
  rw [tokensIn_ownPairs_of_clean clean, List.nil_append] at perm
  cases known : c.token with
  | none =>
    rw [known] at perm
    exact List.perm_nil.1 perm
  | some token =>
    rw [known] at perm
    exact List.perm_singleton.1 perm

/-- Whatever is signed, the token of the credentials is among the parameters. -/
theorem mem_tokensIn_signWith {signed : Request} {token : String} (fit : ExtraFit extra)
    (bound : c.token = some token) (fits : p.fits r = true)
    (h : r.signWith c extra p stamp = .ok signed) : token ∈ tokensIn (writtenPairs p signed) := by
  obtain ⟨signature, -, rfl⟩ := signWith_eq_ok h
  have added : (Parameter.token, token) ∈ r.addedPairs c extra stamp := by
    simp [addedPairs, bound]
  have named := named_of_extraFit (r := r) (c := c) fit stamp signature
  have written := writtenPairs_place (r := { r with followRedirects := false }) fits named
  rw [mem_tokensIn, written.mem_iff]
  exact List.mem_append_right _ (List.mem_append_left _ added)

theorem allPairs_eq_writtenPairs (placement : p = .authHeader) : r.allPairs = writtenPairs p r := by
  rw [allPairs, writtenPairs, if_pos placement]

/-- A verifier reads what was written for the placement only, if there is no header of the
caller's. -/
theorem allPairs_signWith {signed : Request} (header : ¬ r.HasOAuthHeader)
    (h : r.signWith c extra p stamp = .ok signed) : signed.allPairs = writtenPairs p signed := by
  by_cases placement : p = .authHeader
  · exact allPairs_eq_writtenPairs placement
  · obtain ⟨signature, -, rfl⟩ := signWith_eq_ok h
    have none : r.headerPairs = [] := headerPairs_of_not_hasOAuthHeader header
    rw [allPairs_of_ne placement, headerPairs_place_of_ne placement]
    exact congrArg (· ++ _) none

/-- A verifier reads that token only, if it reads no header of the caller's. -/
theorem tokensIn_allPairs {signed : Request} (clean : r.checkCaller = .ok ())
    (fit : ExtraFit extra) (foreign : ∀ q ∈ extra, q.1 ≠ Parameter.token)
    (header : ¬ r.HasOAuthHeader) (fits : p.fits r = true)
    (h : r.signWith c extra p stamp = .ok signed) : tokensIn signed.allPairs = c.token.toList := by
  rw [allPairs_signWith header h, tokensIn_signWith clean fit foreign fits h]

/-- A verifier reads that token, and what a header of the caller's names; there is none left where
the header is the placement. -/
theorem tokensIn_allPairs_signWith {signed : Request} (clean : r.checkCaller = .ok ())
    (fit : ExtraFit extra) (foreign : ∀ q ∈ extra, q.1 ≠ Parameter.token)
    (fits : p.fits r = true) (h : r.signWith c extra p stamp = .ok signed) :
    tokensIn signed.allPairs =
      (if p = .authHeader then [] else tokensIn r.headerPairs) ++ c.token.toList := by
  have written := tokensIn_signWith clean fit foreign fits h
  by_cases placement : p = .authHeader
  · rw [allPairs_eq_writtenPairs placement, written, if_pos placement, List.nil_append]
  · have header : signed.headerPairs = r.headerPairs := by
      obtain ⟨signature, -, rfl⟩ := signWith_eq_ok h
      exact headerPairs_place_of_ne placement
    rw [allPairs_of_ne placement, tokensIn_append, header, written, if_neg placement]

/-- Beside the extra parameters, signing names no session handle. -/
theorem addedPairs_foreign : ∀ q ∈ r.addedPairs c [] stamp, q.1 ≠ Parameter.sessionHandle := by
  intro q hq
  simp only [addedPairs, List.nil_append, List.mem_append, Option.mem_toList,
    Option.map_eq_some_iff, List.mem_cons, List.not_mem_nil, or_false] at hq
  rcases hq with ((rfl | ⟨t, -, rfl⟩) | rfl | rfl | rfl | rfl) | hq
  iterate 6
    · dsimp only
      decide
  split at hq
  · rw [List.mem_singleton.1 hq]
    exact (by decide : Parameter.bodyHash ≠ Parameter.sessionHandle)
  · cases hq

/-- A signed request has a session handle as often as the caller and the extra parameters name it. -/
theorem count_sessionHandle_signWith {signed : Request} (fit : ExtraFit extra)
    (fits : p.fits r = true) (h : r.signWith c extra p stamp = .ok signed) (handle : String) :
    (writtenPairs p signed).count (Parameter.sessionHandle, handle) =
      r.ownPairs.count (Parameter.sessionHandle, handle) +
        extra.count (Parameter.sessionHandle, handle) := by
  obtain ⟨signature, -, rfl⟩ := signWith_eq_ok h
  have named := named_of_extraFit (r := r) (c := c) fit stamp signature
  have written := writtenPairs_place (r := { r with followRedirects := false }) fits named
  have split : r.addedPairs c extra stamp = extra ++ r.addedPairs c [] stamp := by
    simp only [addedPairs, List.nil_append, List.append_assoc]
  have others : (r.addedPairs c [] stamp).count (Parameter.sessionHandle, handle) = 0 :=
    List.count_eq_zero.2 fun mem => addedPairs_foreign _ mem rfl
  have last : [(Parameter.signature, signature)].count (Parameter.sessionHandle, handle) = 0 :=
    List.count_eq_zero.2 fun mem =>
      absurd (congrArg Prod.fst (List.mem_singleton.1 mem))
        (by decide : Parameter.sessionHandle ≠ Parameter.signature)
  rw [written.count_eq, split]
  change (r.ownPairs ++ _).count _ = _
  rw [List.count_append, List.count_append, List.count_append, others, last]
  rfl

end Request
end DelegatedFetch
