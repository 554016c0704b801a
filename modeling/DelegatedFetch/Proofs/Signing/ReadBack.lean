import DelegatedFetch.Proofs.Signing.Placing

/-!
# What is written into a request is read back

Pairs are written into the authorization header or into a form. Every sign with a
meaning there is escaped within names and values, so that reading gives the pairs
back in order, whatever they hold. The header loses parameters named `realm` and
nothing else, the form those without a name.

A form that is appended to other bytes behind an ampersand is read as if it stood
alone, and so are the bytes before it: what is broken there ends at the ampersand.
So a body that somebody else wrote can be signed by appending to it.
-/

namespace DelegatedFetch.Request

open AuthorizationHeader

variable {r : Request} {ps : Pairs}

/-- An authorization header is read back exactly if no parameter is named `realm`; and such a header
is what placing writes. -/
theorem header_reads_back (ps : Pairs) :
    (parse (render ps) = ps ↔ ∀ p ∈ ps, p.1 ≠ "realm") ∧
      ∀ r : Request, (r.place ps .authHeader).headers.first? "Authorization" =
        some (render (ps.filter (Parameter.isProtocol ·.1))) := by
  refine ⟨?_, fun r => first?_place_authHeader⟩
  rw [parse_render, List.filter_eq_self]
  simp only [bne_iff_ne]

/-- Names and values may be empty, and may hold what separates them; names may occur again. -/
example : parse (render [("", ""), ("a", "x, y=\"z\""), ("a", "☃ %2C")]) =
    [("", ""), ("a", "x, y=\"z\""), ("a", "☃ %2C")] := by
  decide +kernel

/-- Whatever the body holds, what is placed in it is read behind that. -/
theorem parse_body_place_postBody : Form.parse (r.place ps .postBody).body =
    Form.parse r.body ++ ps.filter (·.1 != "") := by
  rw [place_postBody]
  split <;> exact parse_grownBody

/-- A request with a form has the pairs that have a name, and counts as one with a form, whatever
it was declared as before; what stands on both sides of an ampersand is read apart, and so is what
is placed in a body from what it held. -/
theorem form_reads_back (r : Request) (ps : Pairs) (a b : Bytes) :
    Form.parse (r.withForm ps).body = ps.filter (·.1 != "") ∧ (r.withForm ps).isForm = true ∧
      Form.parse (a ++ 0x26 :: b) = Form.parse a ++ Form.parse b ∧
      Form.parse (r.place ps .postBody).body = Form.parse r.body ++ ps.filter (·.1 != "") :=
  ⟨Form.parse_encode ps, isForm_setHeader_contentType, Form.parse_append a b,
    parse_body_place_postBody⟩

/-- The escape before the ampersand is not completed by the digit behind it. -/
example : Form.parse (Utf8.encode "a=%4&1=b") = [("a", "%4"), ("1", "b")] := by
  decide +kernel

end DelegatedFetch.Request
