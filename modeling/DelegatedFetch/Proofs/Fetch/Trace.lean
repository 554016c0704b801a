import DelegatedFetch.Fetch.Report
import DelegatedFetch.Proofs.Signing.Placing
import DelegatedFetch.Proofs.Text.Alike

/-!
# What the trace of a signed request hides

A session is extended by a request with a session handle among its parameters.
Where they are placed, the handle stands behind its name in the query, between
quotes in the header, or in a form that the trace may cut. In each place the
trace of the request is the same for another handle that is written at the same
length. The length matters in a form only, where it decides on the cut.
-/

namespace DelegatedFetch

open Redaction (Alike)

namespace Parameter

theorem sessionHandle_secret : sessionHandle.toList ∈ Redaction.secretNames :=
  List.mem_cons_of_mem _ List.mem_cons_self

end Parameter

section Handle

variable {h h' : String}

theorem Form.encodeText_ne_nil (filled : h ≠ "") : Form.encodeText h ≠ [] := by
  intro empty
  have read := Form.decodeText_encodeText h
  rw [empty] at read
  exact filled (read.symm.trans (Form.decodeText_encodeText ""))

theorem Form.encodePair_sessionHandle (h : String) :
    Form.encodePair (Parameter.sessionHandle, h) =
      Parameter.sessionHandle.toList ++ '=' :: Form.encodeText h := by
  have name := Redaction.encodeText_name Parameter.sessionHandle_secret
  rw [String.ofList_toList] at name
  rw [Form.encodePair, name]

theorem alike_encodePair (filled : h ≠ "") (filled' : h' ≠ "") :
    Alike (String.ofList (Form.encodePair (Parameter.sessionHandle, h)))
      (String.ofList (Form.encodePair (Parameter.sessionHandle, h'))) := by
  rw [Form.encodePair_sessionHandle, Form.encodePair_sessionHandle]
  have value {h : String} (filled : h ≠ "") : Redaction.IsValue (Form.encodeText h) :=
    Redaction.isValue_of_mem_alphabet (Form.encodeText_ne_nil filled) fun _ => Form.mem_encodeText
  exact Redaction.alike_plain Parameter.sessionHandle_secret (value filled) (value filled')

namespace Url

theorem alike_render (u : Url) {q q' : String} (alike : Alike q q') :
    Alike { u with query := some q }.render { u with query := some q' }.render :=
  ((alike.append_left "?").append_left _).append_right _

/-- A query with one more pair. -/
def addPair (q : String) (p : String × String) : String :=
  (if q = "" then q else q ++ "&") ++ String.ofList (Form.encodePair p)

theorem addPair_ne_empty (q : String) (p : String × String) : addPair q p ≠ "" := by
  intro empty
  have chars := congrArg String.toList empty
  simp [addPair, Form.encodePair] at chars

/-- More pairs keep two queries alike. -/
theorem alike_foldl_addPair {q q' : String} (alike : Alike q q') (filled : q ≠ "") (filled' : q' ≠ "")
    (ps : Pairs) : Alike (ps.foldl addPair q) (ps.foldl addPair q') := by
  induction ps generalizing q q' with
  | nil => exact alike
  | cons p ps ih =>
    have step : Alike (addPair q p) (addPair q' p) := by
      rw [addPair, addPair, if_neg filled, if_neg filled']
      exact (alike.append_right "&").append_right _
    exact ih step (addPair_ne_empty q p) (addPair_ne_empty q' p)

theorem alike_extendQuery (query : Option String) (before after : Pairs) (filled : h ≠ "")
    (filled' : h' ≠ "") :
    Alike (extendQuery query (before ++ (Parameter.sessionHandle, h) :: after))
      (extendQuery query (before ++ (Parameter.sessionHandle, h') :: after)) := by
  have split (h : String) : extendQuery query (before ++ (Parameter.sessionHandle, h) :: after) =
      after.foldl addPair (addPair (before.foldl addPair (query.getD ""))
        (Parameter.sessionHandle, h)) := by
    change (before ++ (Parameter.sessionHandle, h) :: after).foldl addPair (query.getD "") = _
    rw [List.foldl_append, List.foldl_cons]
  rw [split, split]
  exact alike_foldl_addPair ((alike_encodePair filled filled').append_left _)
    (addPair_ne_empty _ _) (addPair_ne_empty _ _) after

end Url

namespace AuthorizationHeader

theorem alike_renderPair {lead : List Char} (first : lead ∈ Redaction.leads) (h h' : String) :
    Alike (String.ofList lead ++ renderPair (Parameter.sessionHandle, h))
      (String.ofList lead ++ renderPair (Parameter.sessionHandle, h')) := by
  have written (h : String) : String.ofList lead ++ renderPair (Parameter.sessionHandle, h) =
      String.ofList (lead ++ (Parameter.sessionHandle.toList ++
        '=' :: '"' :: ((Percent.encode h).toList ++ ['"']))) := by
    have name : Percent.encode Parameter.sessionHandle = Parameter.sessionHandle := by
      decide +kernel
    have pair := toList_renderPair (Parameter.sessionHandle, h)
    rw [name] at pair
    rw [String.ofList_append, ← pair, String.ofList_toList]
  have chars (h : String) : ∀ c ∈ (Percent.encode h).toList, Redaction.isValueChar c = true := by
    intro c mem
    obtain ⟨comma, -, quote, blank⟩ := plain_of_mem_encode mem
    have ampersand : c ≠ '&' := by
      rintro rfl
      exact absurd (Percent.mem_alphabet_iff.1 (Percent.mem_encode mem)) (by decide)
    simp [Redaction.isValueChar, ampersand, quote, comma, blank]
  rw [written, written]
  exact Redaction.alike_quoted first Parameter.sessionHandle_secret (chars h) (chars h')

/-- Behind any parameters the handle has something before it at which a value ends. -/
theorem alike_join (lead : List Char) (first : lead ∈ Redaction.leads) (before after : Pairs)
    (h h' : String) :
    Alike
      (String.ofList lead ++ String.intercalate ", "
        ((before ++ (Parameter.sessionHandle, h) :: after).map renderPair))
      (String.ofList lead ++ String.intercalate ", "
        ((before ++ (Parameter.sessionHandle, h') :: after).map renderPair)) := by
  induction before generalizing lead with
  | nil =>
    have alike := alike_renderPair first h h'
    cases after with
    | nil => simpa using alike
    | cons p after =>
      simp only [List.nil_append, List.map_cons, String.intercalate_cons_cons, ← String.append_assoc]
      exact (alike.append_right ", ").append_right _
  | cons p before ih =>
    have later := (ih [',', ' '] (by simp [Redaction.leads])).append_left
      (String.ofList lead ++ renderPair p)
    have filled (h : String) :
        (before ++ (Parameter.sessionHandle, h) :: after).map renderPair ≠ [] := by simp
    rw [List.cons_append, List.cons_append, List.map_cons, List.map_cons,
      String.intercalate_cons_of_ne_nil (filled h), String.intercalate_cons_of_ne_nil (filled h')]
    simpa [String.append_assoc] using later

theorem alike_render (before after : Pairs) (h h' : String) :
    Alike (render (before ++ (Parameter.sessionHandle, h) :: after))
      (render (before ++ (Parameter.sessionHandle, h') :: after)) :=
  alike_join ['O', 'A', 'u', 't', 'h', ' '] (by simp [Redaction.leads]) before after h h'

end AuthorizationHeader

/-- A pair in a form stands between what the pairs before it write and what those after it do. -/
theorem Form.encode_around (before after : Pairs) : ∃ front back : List Char, ∀ p,
    Form.encode (before ++ p :: after) = String.ofList (front ++ Form.encodePair p ++ back) := by
  induction before with
  | nil =>
    cases after with
    | nil => exact ⟨[], [], fun p => by simp [Form.encode]⟩
    | cons q after =>
      refine ⟨[], '&' :: List.intercalate ['&'] ((q :: after).map Form.encodePair), fun p => ?_⟩
      simp [Form.encode, List.intercalate_cons_cons]
  | cons q before ih =>
    obtain ⟨front, back, written⟩ := ih
    refine ⟨Form.encodePair q ++ ['&'] ++ front, back, fun p => ?_⟩
    have chars := congrArg String.toList (written p)
    simp only [Form.encode, String.toList_ofList] at chars
    have filled : (before ++ p :: after).map Form.encodePair ≠ [] := by simp
    rw [Form.encode, List.cons_append, List.map_cons, List.intercalate_cons_of_ne_nil filled, chars]
    simp only [List.append_assoc]

namespace Request

/-- A pair in a body stands between what was there before or is placed before it and what is placed
after it. -/
theorem decodeLossy_grownBody (r : Request) (before after : Pairs) :
    ∃ front back : List Char, ∀ p, Utf8.decodeLossy (r.grownBody (before ++ p :: after)) =
      String.ofList (front ++ Form.encodePair p ++ back) := by
  obtain ⟨front, back, written⟩ := Form.encode_around before after
  by_cases empty : r.body.isEmpty = true
  · refine ⟨front, back, fun p => ?_⟩
    rw [grownBody, if_pos empty, Utf8.decodeLossy_encode, written]
  · refine ⟨(Utf8.decodeLossy r.body).toList ++ '&' :: front, back, fun p => ?_⟩
    have ampersand (s : String) : 0x26 :: Utf8.encode s = Utf8.encode ("&" ++ s) := by
      rw [Utf8.encode_append]
      rfl
    have noTail : Utf8.isTail 0x26 = false := by decide
    rw [grownBody, if_neg empty, Utf8.decodeLossy_append noTail, ampersand, Utf8.decodeLossy_encode,
      written]
    apply String.toList_injective
    simp

theorem grownBody_ne_nil (r : Request) (before after : Pairs) (p : String × String) :
    r.grownBody (before ++ p :: after) ≠ [] := by
  intro empty
  obtain ⟨front, back, written⟩ := decodeLossy_grownBody r before after
  have chars := congrArg String.toList ((written p).symm.trans (congrArg Utf8.decodeLossy empty))
  simp [Utf8.decodeLossy, Utf8.lossyChars, Form.encodePair] at chars

end Request

namespace TraceEntry

theorem alike_bodyLines (r : Request) (before after : Pairs) (filled : h ≠ "")
    (long : (Form.encodeText h).length = (Form.encodeText h').length) :
    Alike (bodyLines (r.grownBody (before ++ (Parameter.sessionHandle, h) :: after)))
      (bodyLines (r.grownBody (before ++ (Parameter.sessionHandle, h') :: after))) := by
  obtain ⟨front, back, written⟩ := r.decodeLossy_grownBody before after
  have lines (h : String) :
      bodyLines (r.grownBody (before ++ (Parameter.sessionHandle, h) :: after)) =
        "\n" ++ Excerpt.excerpt (String.ofList (front ++
          (Parameter.sessionHandle.toList ++ '=' :: Form.encodeText h) ++ back)) ++ "\n" := by
    have there := r.grownBody_ne_nil before after (Parameter.sessionHandle, h)
    rw [bodyLines, if_neg (by simpa using there), written, Form.encodePair_sessionHandle]
  have cut := Redaction.alike_excerpt Parameter.sessionHandle_secret
    (fun _ => Form.mem_encodeText) (fun _ => Form.mem_encodeText) (Form.encodeText_ne_nil filled)
    long front back
  rw [lines, lines]
  exact (cut.append_left "\n").append_right "\n"

theorem alike_headerLines (hs : Headers) (name : String) {value value' : String}
    (alike : Alike value value') :
    Alike (headerLines (hs.set name value)) (headerLines (hs.set name value')) := by
  have lines (value : String) : headerLines (hs.set name value) =
      headerLines (hs.filter (!Headers.sameName ·.1 name)) ++ (name ++ ": " ++ value ++ "\n") := by
    simp [headerLines, Headers.set]
  rw [lines, lines]
  exact ((alike.append_left (name ++ ": ")).append_right "\n").append_left _

theorem alike_requestText_of_body (r : Request) {body body' : Bytes}
    (alike : Alike (bodyLines body) (bodyLines body')) :
    Alike (requestText { r with body }) (requestText { r with body := body' }) :=
  alike.append_left (r.method.name ++ " " ++ r.url.render ++ "\n" ++ headerLines r.headers)

theorem alike_requestText (r : Request) (before after : Pairs) (p : Placement) (filled : h ≠ "")
    (filled' : h' ≠ "")
    (long : p = .postBody → (Form.encodeText h).length = (Form.encodeText h').length) :
    Alike (requestText (r.place (before ++ (Parameter.sessionHandle, h) :: after) p))
      (requestText (r.place (before ++ (Parameter.sessionHandle, h') :: after) p)) := by
  cases p with
  | authHeader =>
    have own : Parameter.isProtocol Parameter.sessionHandle = true := by decide +kernel
    have header (h : String) :
        (before ++ (Parameter.sessionHandle, h) :: after).filter (Parameter.isProtocol ·.1) =
          before.filter (Parameter.isProtocol ·.1) ++
            (Parameter.sessionHandle, h) :: after.filter (Parameter.isProtocol ·.1) := by
      rw [List.filter_append, List.filter_cons_of_pos (by exact own)]
    have query (h : String) :
        (before ++ (Parameter.sessionHandle, h) :: after).filter (!Parameter.isProtocol ·.1) =
          (before ++ after).filter (!Parameter.isProtocol ·.1) := by
      rw [List.filter_append, List.filter_cons_of_neg (by simp [own]), List.filter_append]
    have written := AuthorizationHeader.alike_render (before.filter (Parameter.isProtocol ·.1))
      (after.filter (Parameter.isProtocol ·.1)) h h'
    simp only [Request.place, header, query]
    generalize (if ((before ++ after).filter (!Parameter.isProtocol ·.1)).isEmpty = true then r
      else _) = bare
    exact ((alike_headerLines bare.headers "Authorization" written).append_left
      (bare.method.name ++ " " ++ bare.url.render ++ "\n")).append_right (bodyLines bare.body)
  | uriQuery =>
    have query := Url.alike_extendQuery r.url.query before after filled filled'
    exact ((((r.url.alike_render query).append_left (r.method.name ++ " ")).append_right
      "\n").append_right (headerLines r.headers)).append_right (bodyLines r.body)
  | postBody =>
    have body := alike_bodyLines r before after filled (long rfl)
    rw [Request.place_postBody, Request.place_postBody]
    split
    · exact alike_requestText_of_body r body
    · exact alike_requestText_of_body (r.setHeader "Content-Type" formContentType) body

/-- The trace of a request is the same for any session handle that is written at the same length,
whatever else is placed with it, and whatever was in the request before. -/
theorem hides_sessionHandle (label : String) (r : Request) (before after : Pairs) (p : Placement)
    (reply : Option Response) (filled : h ≠ "") (filled' : h' ≠ "")
    (long : p = .postBody → (Form.encodeText h).length = (Form.encodeText h').length) :
    TraceEntry.of label (r.place (before ++ (Parameter.sessionHandle, h) :: after) p) reply =
      TraceEntry.of label (r.place (before ++ (Parameter.sessionHandle, h') :: after) p) reply := by
  have alike := (alike_requestText r before after p filled filled' long).append_right
    (replyText reply)
  rw [TraceEntry.of, TraceEntry.of, alike.redact_eq]

/-- Two requests that extend different sessions leave the same trace. -/
theorem hides_sessionHandle_form :
    let r : Request := ⟨.post, ⟨"https", "", "", some (.domain "sp.example"), none, "/access", none,
      none⟩, [], [], true⟩
    let placed (handle : String) : Request := r.place ([] ++ (Parameter.sessionHandle, handle) ::
      [(Parameter.consumerKey, "key"), (Parameter.token, "token"), (Parameter.signature, "s")])
        .postBody
    (placed "first=").body ≠ (placed "other&").body ∧
      TraceEntry.of "session extension" (placed "first=") none =
        TraceEntry.of "session extension" (placed "other&") none := by
  intro r placed
  constructor
  · intro same
    -- Both bodies are read back, each with its own handle.
    have read := congrArg Form.parse same
    simp only [placed, Request.place_postBody, apply_ite Request.body, Request.setHeader, ite_self,
      Request.parse_grownBody] at read
    exact absurd (List.append_cancel_left read) (by decide)
  · exact hides_sessionHandle "session extension" r [] _ .postBody none (by decide) (by decide)
      fun _ => by decide +kernel

end TraceEntry

end Handle
end DelegatedFetch
