import DelegatedFetch.Proofs.Text.Raw
import DelegatedFetch.Proofs.Text.Redaction

/-!
# What a redacted form still tells

A reply is a form for the reader of tokens, but any text for redaction. The one
reads names and values with their escapes, and a value up to the next ampersand;
the other looks for a name as it is written, and takes a value up to the next
ampersand, comma, quote or blank. So a secret is gone from a redacted reply exactly
if its name is written without escapes and its value without those signs. A secret
under an escaped name is left.
-/

namespace DelegatedFetch.Redaction

open Form (readText readPair Breaks)

/-- A character at which a value ends, or with which a secret name begins, is no digit of an
escape. -/
theorem breaks_of_ends {c : Char} (h : isValueChar c = false ∨ foldCase c = 'o') : Breaks c :=
  Form.breaks_of_ascii (P := fun c => isValueChar c = false ∨ foldCase c = 'o') (by decide +kernel) h

theorem breaks_of_sign {c : Char} (h : c = '=' ∨ c = ':') : Breaks c := by
  rcases h with rfl | rfl
  · decide
  · decide

/-- A secret name in any case is written without the signs that have a meaning in a form. -/
theorem plain_of_named {written : List Char} (named : written.map foldCase ∈ secretNames) :
    ∀ c ∈ written, c ≠ '%' ∧ c ≠ '+' ∧ c ≠ '=' := by
  intro c mem
  have folded := (spelled_of_mem named).chars (foldCase c) (List.mem_map_of_mem mem)
  refine ⟨?_, ?_, ?_⟩
  · rintro rfl
    exact folded.2.1 (by decide)
  · rintro rfl
    exact folded.2.2.1 (by decide)
  · rintro rfl
    exact folded.2.2.2.1 (by decide)

theorem readText_named {written : List Char} (named : written.map foldCase ∈ secretNames)
    (rest : List Char) : readText (written ++ rest) = written ++ readText rest :=
  Form.readText_eq_self (fun c mem => ⟨(plain_of_named named c mem).1, (plain_of_named named c mem).2.1⟩)
    rest

theorem readText_name {name : List Char} (mem : name ∈ secretNames) : readText name = name := by
  have read := readText_named (by rwa [(spelled_of_mem mem).folded]) []
  rwa [List.append_nil, Form.readText_nil, List.append_nil] at read

/-- What stands in place of a value is read as it is. -/
theorem removed_plain : ∀ c ∈ "REMOVED".toList, isValueChar c = true ∧ c ≠ '%' ∧ c ≠ '+' := by
  have letters : "REMOVED".toList = ['R', 'E', 'M', 'O', 'V', 'E', 'D'] := String.toList_ofList
  rw [letters]
  exact forall_mem_of_all (by decide)

theorem readText_removed (rest : List Char) :
    readText ("REMOVED".toList ++ rest) = "REMOVED".toList ++ readText rest :=
  Form.readText_eq_self (fun c mem => (removed_plain c mem).2) rest

/-- A text with a colon in it is not read as a secret name. -/
theorem not_secret_of_colon {name : List Char} (colon : ':' ∈ name) :
    readText name ∉ secretNames := by
  intro mem
  have letter := (spelled_of_mem mem).chars ':' (Form.mem_readText (by decide) colon)
  exact letter.2.2.2.2 rfl

/-- A secret name within a text that is read as one is all of the text. -/
theorem written_of_secret {before written gap : List Char}
    (named : written.map foldCase ∈ secretNames)
    (read : readText (before ++ (written ++ gap)) ∈ secretNames) :
    before = [] ∧ gap = [] ∧ written ∈ secretNames := by
  have parts : readText (before ++ (written ++ gap)) =
      readText before ++ (written ++ readText gap) := by
    rw [← readText_named named]
    have first := (spelled_of_mem named).first
    cases written with
    | nil => cases first
    | cons c written => exact Form.readText_append (breaks_of_ends (.inr (Option.some.inj first))) _ _
  rw [parts] at read
  -- Folded, the name that is read has the one that is written within it.
  have within : written.map foldCase <:+: readText before ++ (written ++ readText gap) := by
    rw [← (spelled_of_mem read).folded, List.map_append, List.map_append]
    exact ⟨_, _, List.append_assoc _ _ _⟩
  have whole : ∀ name ∈ secretNames, ∀ part ∈ secretNames, part <:+: name → part = name := by
    rw [secretNames_eq]
    decide
  have long := congrArg List.length (whole _ read _ named within)
  simp only [List.length_map, List.length_append] at long
  have noBefore : readText before = [] := List.length_eq_zero_iff.1 (by omega)
  have noGap : readText gap = [] := List.length_eq_zero_iff.1 (by omega)
  rw [noBefore, noGap, List.nil_append, List.append_nil] at read
  exact ⟨Form.readText_eq_nil noBefore, Form.readText_eq_nil noGap, read⟩

theorem ne_of_free {front : List Char} (free : '=' ∉ front) : ∀ c ∈ front, (c == '=') = false := by
  intro c mem
  rw [beq_eq_false_iff_ne]
  rintro rfl
  exact free mem

theorem cut_append_cons {front : List Char} (free : '=' ∉ front) (rest : List Char) :
    cut (· == '=') (front ++ '=' :: rest) = (front, rest) := by
  rw [cut, cut?_append_cons _ (ne_of_free free) (by rfl), Option.getD_some]

/-- What stands before the first equals sign belongs to the name. -/
theorem cut_append {front : List Char} (free : '=' ∉ front) (rest : List Char) :
    cut (· == '=') (front ++ rest) =
      (front ++ (cut (· == '=') rest).1, (cut (· == '=') rest).2) := by
  rw [cut, cut?_append_of_forall_not (ne_of_free free), cut]
  cases cut? (· == '=') rest <;> rfl

/-- What is read from a segment is no secret: it has no secret name, or no value, or what stands in
place of one. -/
def Harmless (segment : List Char) : Prop :=
  (readPair segment).1.toList ∈ secretNames →
    (readPair segment).2 = "" ∨ (readPair segment).2 = "REMOVED"

/-- A segment is written in such a way that redaction finds all of its value. -/
def Found (segment : List Char) : Prop :=
  (cut (· == '=') segment).1 ∈ secretNames ∧
    ∀ c ∈ (cut (· == '=') segment).2, isValueChar c = true

theorem harmless_iff {segment name value : List Char} (parts : cut (· == '=') segment = (name, value)) :
    Harmless segment ↔ (readText name ∈ secretNames →
      readText value = [] ∨ readText value = "REMOVED".toList) := by
  rw [Harmless, readPair, parts]
  simp only [String.toList_ofList, ← String.toList_inj, String.toList_empty]

theorem harmless_of_unnamed {segment : List Char}
    (h : readText (cut (· == '=') segment).1 ∉ secretNames) : Harmless segment :=
  (harmless_iff rfl).2 fun named => absurd named h

/-- A character at which values end is left in a value, where it is. -/
theorem not_removed_of_mem {value : List Char} {c : Char} (breaks : Breaks c)
    (other : c ∉ "REMOVED".toList) (mem : c ∈ value) :
    ¬ (readText value = [] ∨ readText value = "REMOVED".toList) := by
  have still := Form.mem_readText breaks mem
  rintro (empty | removed)
  · rw [empty] at still
    cases still
  · rw [removed] at still
    exact other still

theorem sign_not_removed {c : Char} (h : c = '=' ∨ c = ':') : c ∉ "REMOVED".toList := by
  rcases h with rfl | rfl
  · decide
  · decide

/-- With a sign in it a value is no less a secret for what follows the sign. -/
theorem harmless_congr_of_sign {name : List Char} (free : '=' ∉ name) {sign : Char}
    (h : sign = '=' ∨ sign = ':') (front rest rest' : List Char) :
    Harmless (name ++ '=' :: (front ++ sign :: rest)) ↔
      Harmless (name ++ '=' :: (front ++ sign :: rest')) := by
  have told (rest : List Char) : ¬ (readText (front ++ sign :: rest) = [] ∨
      readText (front ++ sign :: rest) = "REMOVED".toList) :=
    not_removed_of_mem (breaks_of_sign h) (sign_not_removed h)
      (List.mem_append_right _ List.mem_cons_self)
  rw [harmless_iff (cut_append_cons free _), harmless_iff (cut_append_cons free _)]
  constructor
  · intro harmless named
    exact absurd (harmless named) (told rest)
  · intro harmless named
    exact absurd (harmless named) (told rest')

/-- A colon before the first equals sign belongs to the name, which is no secret one then. -/
theorem harmless_of_colon {front : List Char} (free : '=' ∉ front) (rest : List Char) :
    Harmless (front ++ ':' :: rest) := by
  have freeColon : '=' ∉ front ++ [':'] := by simp [free]
  have name := cut_append freeColon rest
  rw [List.append_assoc, List.singleton_append] at name
  refine harmless_of_unnamed (not_secret_of_colon ?_)
  rw [name]
  simp

/-- How a secret begins has no equals sign but the one before the value. -/
theorem Begins.free {written gap gap' : List Char} {sign : Char}
    (begins : Begins written gap sign gap') : '=' ∉ written ++ gap := by
  rw [List.mem_append]
  rintro (mem | mem)
  · exact (plain_of_named begins.named _ mem).2.2 rfl
  · exact absurd (begins.gap _ mem) (by decide)

/-- A segment in which no secret name stands before an equals sign is as harmless after redaction as
it was before. -/
theorem harmless_redactChars_of_unnamed {segment : List Char}
    (unnamed : ∀ name ∈ secretNames, ∀ value, segment ≠ name ++ '=' :: value) :
    Harmless (redactChars segment) ↔ Harmless segment := by
  rcases redactChars_cases segment with
    same | ⟨before, written, gap, sign, gap', rest, whole, begins, removed⟩
  · rw [same]
  obtain ⟨kept, hkept⟩ : ∃ kept, kept = gap' ++ ("REMOVED".toList ++
      redactChars (rest.dropWhile isValueChar)) := ⟨_, rfl⟩
  have unredacted : segment = before ++ (written ++ gap) ++ sign :: (gap' ++ rest) := by
    rw [whole]
    simp
  have after : redactChars segment = before ++ (written ++ gap) ++ sign :: kept := by
    rw [removed, hkept]
    simp
  rw [after, unredacted]
  by_cases inName : '=' ∈ before
  · -- The secret begins within the value.
    obtain ⟨name, front, rfl, free⟩ := List.eq_append_cons_of_mem inName
    have congr := harmless_congr_of_sign free begins.sign (front ++ (written ++ gap)) kept
      (gap' ++ rest)
    simpa using congr
  · -- The secret begins within the name, and its sign is the first equals sign or belongs to the name.
    have free : '=' ∉ before ++ (written ++ gap) := by
      rw [List.mem_append]
      exact not_or.2 ⟨inName, begins.free⟩
    rcases begins.sign with rfl | rfl
    · have harmless (value : List Char) : Harmless (before ++ (written ++ gap) ++ '=' :: value) := by
        refine harmless_of_unnamed fun read => ?_
        rw [cut_append_cons free] at read
        obtain ⟨rfl, rfl, mem⟩ := written_of_secret begins.named read
        exact unnamed written mem (gap' ++ rest) (by simpa using unredacted)
      exact iff_of_true (harmless _) (harmless _)
    · exact iff_of_true (harmless_of_colon free _) (harmless_of_colon free _)

theorem free_of_mem_name {name : List Char} (mem : name ∈ secretNames) : '=' ∉ name :=
  fun sign => ((spelled_of_mem mem).chars '=' sign).2.2.2.1 rfl

/-- The value of a secret name is harmless if all of it was one value, and only then. -/
theorem harmless_redactChars_of_named {name : List Char} (mem : name ∈ secretNames)
    (value : List Char) :
    Harmless (redactChars (name ++ '=' :: value)) ↔ ∀ c ∈ value, isValueChar c = true := by
  have free := free_of_mem_name mem
  constructor
  · intro harmless
    obtain ⟨blanks, hblanks, -⟩ := dropBlanks_suffix value
    obtain ⟨quote, hquote, -⟩ := skipQuote_suffix (value.dropWhile isBlank)
    obtain ⟨rest, hrest⟩ : ∃ rest, rest = skipQuote (value.dropWhile isBlank) := ⟨_, rfl⟩
    have parts : value = blanks ++ quote ++ rest := by
      rw [hrest, List.append_assoc, ← hquote, ← hblanks]
    have removed := redactChars_name mem (blanks ++ quote) rest (by rw [← parts, hrest])
    rw [parts, removed, harmless_iff (cut_append_cons free _)] at harmless
    have read : readText (blanks ++ quote ++
        ("REMOVED".toList ++ redactChars (rest.dropWhile isValueChar))) =
          readText (blanks ++ quote) ++
            ("REMOVED".toList ++ readText (redactChars (rest.dropWhile isValueChar))) := by
      rw [← readText_removed]
      exact Form.readText_append (by decide) _ _
    have secret : readText name ∈ secretNames := by rwa [readText_name mem]
    have long : (readText (blanks ++ quote)).length +
        (readText (redactChars (rest.dropWhile isValueChar))).length = 0 := by
      rcases harmless secret with empty | whole
      · rw [read] at empty
        simp at empty
      · have length := congrArg List.length (read.symm.trans whole)
        simp only [List.length_append] at length
        omega
    have noGap := Form.readText_eq_nil (List.length_eq_zero_iff.1 (Nat.eq_zero_of_add_eq_zero long).1)
    have noRest := redactChars_eq_nil (Form.readText_eq_nil
      (List.length_eq_zero_iff.1 (Nat.eq_zero_of_add_eq_zero long).2))
    rw [parts, noGap, List.nil_append]
    exact List.dropWhile_eq_nil_iff.1 noRest
  · intro chars
    have plain : skipQuote (([] ++ value).dropWhile isBlank) = value := by
      cases value with
      | nil => rfl
      | cons c value => simpa using IsValue.plain ⟨List.cons_ne_nil c value, chars⟩ []
    have removed := redactChars_name mem [] value plain
    rw [List.nil_append, List.nil_append, List.dropWhile_eq_nil_iff.2 chars, redactChars_nil] at removed
    rw [removed, harmless_iff (cut_append_cons free _)]
    intro _
    right
    rw [List.append_nil, ← List.append_nil "REMOVED".toList, readText_removed, Form.readText_nil]

theorem isValueChar_of_harmless {name : List Char} (mem : name ∈ secretNames) {value : List Char}
    (harmless : Harmless (name ++ '=' :: value)) : ∀ c ∈ value, isValueChar c = true := by
  intro c inside
  by_contra ends
  have other : c ∉ "REMOVED".toList := by
    intro letter
    exact ends (removed_plain c letter).1
  have secret : readText name ∈ secretNames := by rwa [readText_name mem]
  exact not_removed_of_mem (breaks_of_ends (.inl (Bool.eq_false_iff.2 ends))) other inside
    ((harmless_iff (cut_append_cons (free_of_mem_name mem) _)).1 harmless secret)

/-- Redaction leaves no secret in a segment exactly if there was none or it finds all of it. -/
theorem harmless_redactChars_iff (segment : List Char) :
    Harmless (redactChars segment) ↔ Harmless segment ∨ Found segment := by
  by_cases named : ∃ name ∈ secretNames, ∃ value, segment = name ++ '=' :: value
  · obtain ⟨name, mem, value, rfl⟩ := named
    have parts := cut_append_cons (free_of_mem_name mem) value
    rw [harmless_redactChars_of_named mem, Found, parts]
    constructor
    · intro chars
      exact .inr ⟨mem, chars⟩
    · rintro (harmless | found)
      · exact isValueChar_of_harmless mem harmless
      · exact found.2
  · have unnamed : ∀ name ∈ secretNames, ∀ value, segment ≠ name ++ '=' :: value :=
      fun name mem value whole => named ⟨name, mem, value, whole⟩
    rw [harmless_redactChars_of_unnamed unnamed]
    refine ⟨.inl, ?_⟩
    rintro (harmless | found)
    · exact harmless
    · by_cases separated : '=' ∈ segment
      · obtain ⟨name, value, rfl, free⟩ := List.eq_append_cons_of_mem separated
        rw [Found, cut_append_cons free] at found
        exact absurd rfl (unnamed name found.1 value)
      · -- A name alone has no value.
        have parts := cut_append separated []
        rw [List.append_nil] at parts
        exact (harmless_iff parts).2 fun _ => .inl Form.readText_nil

/-- What is read from a redacted text is read from its redacted segments. -/
theorem mem_parse_redact_iff {body name value : String} :
    (name, value) ∈ Form.parse (Utf8.encode (redact body)) ↔
      name ≠ "" ∧ ∃ segment ∈ pieces (· == '&') body.toList,
        readPair (redactChars segment) = (name, value) := by
  rw [Form.mem_parse_iff, redact, String.toList_ofList, pieces_redactChars]
  simp only [List.mem_map, exists_exists_and_eq_and]

/-- No secret can be read from a redacted text exactly if each of its segments had none, or was
written in such a way that redaction finds all of it. -/
theorem hidden_iff (body : String) :
    (∀ name value, name.toList ∈ secretNames →
        (name, value) ∈ Form.parse (Utf8.encode (redact body)) →
          value = "" ∨ value = "REMOVED") ↔
      ∀ segment ∈ pieces (· == '&') body.toList, Harmless segment ∨ Found segment := by
  constructor
  · intro hidden segment mem
    rw [← harmless_redactChars_iff]
    intro secret
    refine hidden _ _ secret (mem_parse_redact_iff.2 ⟨?_, segment, mem, rfl⟩)
    intro empty
    rw [empty] at secret
    cases (spelled_of_mem secret).first
  · intro each name value secret mem
    obtain ⟨-, segment, own, read⟩ := mem_parse_redact_iff.1 mem
    have harmless := (harmless_redactChars_iff segment).2 (each segment own)
    rw [Harmless, read] at harmless
    exact harmless secret

/-- The secret of a token is left in a reply that writes its name with an escape. -/
theorem escaped_name_not_hidden :
    ¬ ∀ name value, name.toList ∈ secretNames →
      (name, value) ∈
          Form.parse (Utf8.encode (redact "oauth_token=at&oauth_token%5Fsecret=hidden")) →
        value = "" ∨ value = "REMOVED" := by
  have kept : redact "oauth_token=at&oauth_token%5Fsecret=hidden" =
      "oauth_token=at&oauth_token%5Fsecret=hidden" := by
    have front := redactChars_front "oauth_token=at&oauth_token%5Fsecret=hidden".toList
      (by decide +kernel) []
    rw [List.append_nil, redactChars_nil, List.append_nil] at front
    rw [redact, front, String.ofList_toList]
  intro hidden
  have told := hidden "oauth_token_secret" "hidden" (by simp [secretNames])
    (by rw [kept]; decide +kernel)
  exact absurd told (by decide)

theorem free_encodeText (s : String) : '=' ∉ Form.encodeText s :=
  fun mem => (Form.code_of_mem_alphabet (Form.mem_encodeText mem)).2.2 (by decide)

/-- The segments of a written form are its pairs. -/
theorem mem_pieces_encode {ps : Pairs} {segment : List Char}
    (mem : segment ∈ pieces (· == '&') (Form.encode ps).toList) :
    segment = [] ∨ ∃ p ∈ ps, segment = Form.encodePair p := by
  have free (p : String × String) : ∀ c ∈ Form.encodePair p, (c == '&') = false := by
    intro c inside
    rw [Form.encodePair, List.mem_append, List.mem_cons] at inside
    rw [beq_eq_false_iff_ne]
    rintro rfl
    rcases inside with inside | inside | inside
    · exact (Form.code_of_mem_alphabet (Form.mem_encodeText inside)).2.1 (by decide)
    · exact absurd inside (by decide)
    · exact (Form.code_of_mem_alphabet (Form.mem_encodeText inside)).2.1 (by decide)
  rw [Form.encode, String.toList_ofList] at mem
  induction ps with
  | nil => exact .inl (List.mem_singleton.1 mem)
  | cons p ps ih =>
    cases ps with
    | nil =>
      rw [List.map_singleton, List.intercalate_singleton, pieces_of_forall_not _ (free p)] at mem
      exact .inr ⟨p, List.mem_cons_self, List.mem_singleton.1 mem⟩
    | cons q ps =>
      rw [List.map_cons, List.map_cons, List.intercalate_cons_cons, List.append_assoc,
        List.singleton_append, pieces_append_cons _ (free p) (by rfl), List.mem_cons] at mem
      rcases mem with rfl | mem
      · exact .inr ⟨p, List.mem_cons_self, rfl⟩
      · rcases ih mem with empty | ⟨p', inside, same⟩
        · exact .inl empty
        · exact .inr ⟨p', List.mem_cons_of_mem p inside, same⟩

/-- No secret can be read from the redaction of a form that was written as one. -/
theorem hidden_encode (ps : Pairs) {name value : String} (secret : name.toList ∈ secretNames)
    (mem : (name, value) ∈ Form.parse (Utf8.encode (redact (Form.encode ps)))) :
    value = "" ∨ value = "REMOVED" := by
  obtain ⟨-, segment, own, read⟩ := mem_parse_redact_iff.1 mem
  have each : Harmless segment ∨ Found segment := by
    rcases mem_pieces_encode own with rfl | ⟨p, -, rfl⟩
    · refine .inl (harmless_of_unnamed fun secret => ?_)
      change readText [] ∈ secretNames at secret
      rw [Form.readText_nil] at secret
      cases (spelled_of_mem secret).first
    · have parts := cut_append_cons (free_encodeText p.1) (Form.encodeText p.2)
      by_cases secret : p.1.toList ∈ secretNames
      · have written := encodeText_name secret
        rw [String.ofList_toList] at written
        rw [Found, Form.encodePair, parts, written]
        exact .inr ⟨secret, fun c inside => isValueChar_of_mem_alphabet (Form.mem_encodeText inside)⟩
      · refine .inl (harmless_of_unnamed ?_)
        rw [Form.encodePair, parts, Form.readText_encodeText]
        exact secret
  have harmless := (harmless_redactChars_iff segment).2 each
  rw [Harmless, read] at harmless
  exact harmless secret

end DelegatedFetch.Redaction
