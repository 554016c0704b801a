import DelegatedFetch.Proofs.Signing.Header
import DelegatedFetch.Signing.Sign
import DelegatedFetch.Signing.Verify

/-!
# Where placed parameters are found

Three equations tell what a verifier reads in the header, the query and the
body of a request after parameters were placed. Nothing is lost: all that the
caller sent and all that was placed is read again, an authorization header
aside that was replaced.
-/

namespace DelegatedFetch

open Utf8

namespace Url

theorem parseQuery_extend (q : String) (p : String × String) :
    Form.parseQuery (Utf8.encode
      ((if q = "" then q else q ++ "&") ++ String.ofList (Form.encodePair p))) =
      Form.parseQuery (Utf8.encode q) ++ [p] := by
  have pair : Utf8.encode (String.ofList (Form.encodePair p)) = asciiBytes (Form.encodePair p) :=
    encode_ascii fun _ => Form.ascii_of_mem_encodePair
  rw [encode_append, pair]
  split
  · rename_i empty
    subst empty
    exact Form.parseQuery_encodePair p
  · rw [encode_append, List.append_assoc]
    change Form.parseQuery (_ ++ 0x26 :: asciiBytes (Form.encodePair p)) = _
    rw [Form.parseQuery_append, Form.parseQuery_encodePair]

/-- Appended pairs stand behind those that were there. -/
theorem queryPairs_appendQuery (u : Url) (ps : Pairs) :
    (u.appendQuery ps).queryPairs = u.queryPairs ++ ps := by
  simp only [queryPairs, appendQuery, extendQuery, Option.getD_some]
  generalize u.query.getD "" = q
  induction ps generalizing q with
  | nil => simp
  | cons p ps ih =>
    rw [List.foldl_cons, ih, parseQuery_extend, List.append_assoc]
    rfl

end Url

namespace Headers

theorem sameName_iff {a b : String} : sameName a b = true ↔ a.toLower = b.toLower := by
  rw [sameName, beq_iff_eq]

theorem first?_set_self (hs : Headers) (name value : String) :
    (hs.set name value).first? name = some value := by
  have gone : (hs.filter (!sameName ·.1 name)).find? (sameName ·.1 name) = none := by
    rw [List.find?_eq_none]
    intro h hh
    simpa using (List.mem_filter.1 hh).2
  have self : sameName name name = true := sameName_iff.2 rfl
  rw [first?, set, List.find?_append, gone, Option.none_or, List.find?_cons_of_pos (by exact self)]
  rfl

/-- Setting one header leaves the others as they are. -/
theorem first?_set_of_not (hs : Headers) {name other : String} (value : String)
    (h : sameName name other = false) : (hs.set name value).first? other = hs.first? other := by
  have apart (k : String) (hk : sameName k other = true) : sameName k name = false := by
    rw [Bool.eq_false_iff] at h ⊢
    intro hn
    exact h (sameName_iff.2 ((sameName_iff.1 hn).symm.trans (sameName_iff.1 hk)))
  have rest : (hs.filter (!sameName ·.1 name)).find? (sameName ·.1 other) =
      hs.find? (sameName ·.1 other) := by
    rw [List.find?_filter]
    congr 1
    funext k
    by_cases hk : sameName k.1 other = true
    · simp [hk, apart k.1 hk]
    · simp [hk]
  rw [first?, set, List.find?_append, rest, List.find?_cons_of_neg (by simp [h])]
  simp [first?]

end Headers

/-- The two headers that placing may set are different ones. -/
theorem authorization_ne_contentType : Headers.sameName "Authorization" "Content-Type" = false := by
  decide +kernel

theorem contentType_ne_authorization : Headers.sameName "Content-Type" "Authorization" = false := by
  decide +kernel

namespace Parameter

/-- A name of the protocol proper is reserved. -/
theorem isReserved_of_isProtocol {name : String} (h : isProtocol name = true) :
    isReserved name = true := by
  rw [isProtocol, List.isPrefixOf_iff_prefix] at h
  obtain ⟨rest, whole⟩ := h
  have lower : name.toLower.toList = headerBeginning.toList ++ rest.map Char.toLower := by
    have lowered : name.toLower.toList = name.toList.map Char.toLower := String.toList_map
    rw [lowered, ← whole, List.map_append]
    rfl
  rw [isReserved, List.any_eq_true]
  refine ⟨headerBeginning, by decide, ?_⟩
  rw [List.isPrefixOf_iff_prefix, lower]
  exact List.prefix_append _ _

end Parameter

namespace Request

variable {r : Request} {ps : Pairs}

/-- In the header goes what belongs to the protocol; the rest is appended to the query. -/
theorem place_authHeader (r : Request) (ps : Pairs) :
    ∃ url, r.place ps .authHeader = { r with url }.setHeader "Authorization"
        (AuthorizationHeader.render (ps.filter (Parameter.isProtocol ·.1))) ∧
      url.queryPairs = r.url.queryPairs ++ ps.filter (!Parameter.isProtocol ·.1) ∧
      BaseString.address url = BaseString.address r.url := by
  by_cases h : (ps.filter (!Parameter.isProtocol ·.1)).isEmpty = true
  · refine ⟨r.url, ?_, ?_, rfl⟩
    · simp only [place, h, if_true]
    · rw [List.isEmpty_iff.1 h, List.append_nil]
  · refine ⟨r.url.appendQuery (ps.filter (!Parameter.isProtocol ·.1)), ?_,
      Url.queryPairs_appendQuery _ _, rfl⟩
    simp only [place, h]
    rfl

/-- The body after parameters were placed in it. -/
def grownBody (r : Request) (ps : Pairs) : Bytes :=
  if r.body.isEmpty then Utf8.encode (Form.encode ps)
  else r.body ++ 0x26 :: Utf8.encode (Form.encode ps)

/-- A body grows by what is placed in it, and one that was none yet is declared as a form. -/
theorem place_postBody :
    r.place ps .postBody =
      if r.isForm then { r with body := r.grownBody ps }
      else { r with body := r.grownBody ps }.setHeader "Content-Type" formContentType := rfl

/-- Placing changes nothing of what is signed but the parameters, and does not let redirections be
followed. -/
theorem place_frame (r : Request) (ps : Pairs) (p : Placement) :
    (r.place ps p).method = r.method ∧
      BaseString.address (r.place ps p).url = BaseString.address r.url ∧
      (r.place ps p).followRedirects = r.followRedirects := by
  cases p with
  | authHeader =>
    obtain ⟨url, placed, -, address⟩ := place_authHeader r ps
    rw [placed]
    exact ⟨rfl, address, rfl⟩
  | uriQuery => exact ⟨rfl, rfl, rfl⟩
  | postBody =>
    rw [place_postBody]
    split <;> exact ⟨rfl, rfl, rfl⟩

/-- The first authorization header is the one that was placed. -/
theorem first?_place_authHeader : (r.place ps .authHeader).headers.first? "Authorization" =
    some (AuthorizationHeader.render (ps.filter (Parameter.isProtocol ·.1))) := by
  obtain ⟨url, placed, -, -⟩ := place_authHeader r ps
  rw [placed, setHeader, Headers.first?_set_self]

/-- The header holds what was placed there, and nothing of what it held before. -/
theorem headerPairs_place_authHeader :
    (r.place ps .authHeader).headerPairs = ps.filter (Parameter.isProtocol ·.1) := by
  have kept : ∀ q : String × String, Parameter.isProtocol q.1 = true → (q.1 != "realm") = true := by
    intro q hq
    rw [bne_iff_ne]
    intro realm
    rw [realm] at hq
    exact absurd hq (by decide)
  rw [headerPairs, first?_place_authHeader, Option.map_some, Option.getD_some,
    AuthorizationHeader.parse_render]
  exact List.filter_eq_self.2 fun q hq => kept q (List.mem_filter.1 hq).2

/-- Elsewhere placed parameters leave the header as it is. -/
theorem headerPairs_place_of_ne {p : Placement} (h : p ≠ .authHeader) :
    (r.place ps p).headerPairs = r.headerPairs := by
  cases p with
  | authHeader => exact absurd rfl h
  | uriQuery => rfl
  | postBody =>
    rw [place_postBody]
    split
    · rfl
    · rw [headerPairs, setHeader, Headers.first?_set_of_not _ _ contentType_ne_authorization]
      rfl

theorem queryPairs_place_authHeader :
    (r.place ps .authHeader).url.queryPairs =
      r.url.queryPairs ++ ps.filter (!Parameter.isProtocol ·.1) := by
  obtain ⟨url, placed, query, -⟩ := place_authHeader r ps
  rw [placed]
  exact query

theorem queryPairs_place_uriQuery :
    (r.place ps .uriQuery).url.queryPairs = r.url.queryPairs ++ ps :=
  Url.queryPairs_appendQuery r.url ps

theorem queryPairs_place_postBody : (r.place ps .postBody).url.queryPairs = r.url.queryPairs := by
  rw [place_postBody]
  split <;> rfl

/-- A header that is no content type does not make a form of a body. -/
theorem isForm_setHeader_authorization (value : String) :
    (r.setHeader "Authorization" value).isForm = r.isForm := by
  have type : (r.setHeader "Authorization" value).contentType? = r.contentType? :=
    Headers.first?_set_of_not _ _ authorization_ne_contentType
  rw [isForm, type, isForm]

/-- A body that is declared as a form is one. -/
theorem isForm_setHeader_contentType :
    (r.setHeader "Content-Type" formContentType).isForm = true := by
  have bare : trim (String.ofList (cut (· == ';') formContentType.toList).1) = formContentType := by
    decide
  rw [isForm, contentType?, setHeader, Headers.first?_set_self]
  simp only [bare]
  exact Headers.sameName_iff.2 rfl

theorem parse_grownBody :
    Form.parse (r.grownBody ps) = Form.parse r.body ++ ps.filter (·.1 != "") := by
  rw [grownBody]
  split
  · rename_i empty
    rw [List.isEmpty_iff.1 empty, Form.parse_encode]
    rfl
  · rw [Form.parse_append, Form.parse_encode]

/-- Elsewhere placed parameters leave the body as it is, and what it is. -/
theorem body_place_of_ne {p : Placement} (h : p ≠ .postBody) :
    (r.place ps p).body = r.body ∧ (r.place ps p).isForm = r.isForm := by
  cases p with
  | authHeader =>
    obtain ⟨url, placed, -, -⟩ := place_authHeader r ps
    rw [placed, isForm_setHeader_authorization]
    exact ⟨rfl, rfl⟩
  | uriQuery => exact ⟨rfl, rfl⟩
  | postBody => exact absurd rfl h

theorem formPairs_place_of_ne {p : Placement} (h : p ≠ .postBody) :
    (r.place ps p).formPairs = r.formPairs := by
  rw [formPairs, (body_place_of_ne h).1, (body_place_of_ne h).2, formPairs]

/-- The form holds what it held before and then what was placed there, if it has a name. -/
theorem formPairs_place_postBody (fits : Placement.postBody.fits r = true) :
    (r.place ps .postBody).formPairs = r.formPairs ++ ps.filter (·.1 != "") := by
  rw [place_postBody]
  split
  · rename_i form
    have still : { r with body := r.grownBody ps }.isForm = true := form
    rw [formPairs, if_pos still, formPairs, if_pos form]
    exact parse_grownBody
  · rename_i noForm
    have empty : r.body = [] := by
      simp only [Placement.fits, noForm, Bool.or_false, Bool.and_eq_true] at fits
      exact List.isEmpty_iff.1 fits.2
    rw [formPairs, if_pos isForm_setHeader_contentType, formPairs, if_neg noForm]
    change Form.parse (r.grownBody ps) = _
    rw [parse_grownBody, empty]
    rfl

/-- The parameters of a request that was signed for a placement. An authorization header counts only
where the placement is the header; elsewhere it is the caller's. -/
def writtenPairs (p : Placement) (r : Request) : Pairs :=
  (if p = .authHeader then r.headerPairs else []) ++ r.url.queryPairs ++ r.formPairs

theorem allPairs_of_ne {p : Placement} (h : p ≠ .authHeader) :
    r.allPairs = r.headerPairs ++ writtenPairs p r := by
  rw [allPairs, writtenPairs, if_neg h, List.nil_append, List.append_assoc]

/-- All that the caller sent and all that was placed is read again. -/
theorem writtenPairs_place {p : Placement} (fits : p.fits r = true)
    (named : ∀ q ∈ ps, q.1 ≠ "") : (writtenPairs p (r.place ps p)).Perm (r.ownPairs ++ ps) := by
  rw [writtenPairs, ownPairs]
  cases p with
  | authHeader =>
    have parts : (ps.filter (Parameter.isProtocol ·.1) ++
        ps.filter (!Parameter.isProtocol ·.1)).Perm ps :=
      List.filter_append_perm _ ps
    rw [headerPairs_place_authHeader, queryPairs_place_authHeader,
      formPairs_place_of_ne (by decide), if_pos rfl]
    apply List.perm_iff_count.2
    intro q
    have count := parts.count_eq q
    simp only [List.count_append] at count ⊢
    omega
  | uriQuery =>
    rw [queryPairs_place_uriQuery, formPairs_place_of_ne (by decide), if_neg (by decide)]
    apply List.perm_iff_count.2
    intro q
    simp only [List.count_append, List.count_nil]
    omega
  | postBody =>
    have all : ps.filter (·.1 != "") = ps :=
      List.filter_eq_self.2 fun q hq => bne_iff_ne.2 (named q hq)
    rw [queryPairs_place_postBody, formPairs_place_postBody fits, if_neg (by decide), all]
    simp only [List.nil_append, List.append_assoc, List.Perm.refl]

/-- Nothing else is read, if the caller wrote no authorization header or it was replaced. -/
theorem allPairs_place {p : Placement} (fits : p.fits r = true) (named : ∀ q ∈ ps, q.1 ≠ "")
    (header : p = .authHeader ∨ r.headerPairs = []) :
    (r.place ps p).allPairs.Perm (r.ownPairs ++ ps) := by
  have written := writtenPairs_place fits named
  by_cases h : p = .authHeader
  · rwa [writtenPairs, if_pos h] at written
  · rwa [allPairs_of_ne h, headerPairs_place_of_ne h, header.resolve_left h]

end Request
end DelegatedFetch
