import DelegatedFetch.Proofs.Fetch.Expired

/-!
# Which reports of problems are found

A provider may challenge a request in several headers, in any order, and report
a problem in one of them. What a call does about a failure follows from the
report that is found: how the failure is told, whether the call recovers, and
whether a session is extended.

Only the first challenge is looked at. A report in a later one is found if the
first tells of no problem and the body has the same report; otherwise it is
missed, and an expired session with it.
-/

namespace DelegatedFetch

open Call

/-- What is reported by the parameters of a challenge or of a form. -/
def reportIn? (pairs : Pairs) : Option ProblemReport :=
  ((pairs.first? Parameter.problem).filter (· != "")).map fun code =>
    ⟨Problem.parse code, pairs.first? Parameter.problemAdvice⟩

theorem isSome_first?_of_reportIn? {pairs : Pairs} {report : ProblemReport}
    (reported : reportIn? pairs = some report) :
    (pairs.first? Parameter.problem).isSome = true := by
  cases named : pairs.first? Parameter.problem with
  | some code => rfl
  | none =>
    rw [reportIn?, named] at reported
    cases reported

namespace Response

variable {r : Response} {report : ProblemReport} {more : List ProblemReport}

/-- The challenges of a response, in the order of its headers. -/
def challenges (r : Response) : List String :=
  (r.headers.filter (Headers.sameName ·.1 "WWW-Authenticate")).map (·.2)

/-- All that the challenges of the protocol report, in order. -/
def reports (r : Response) : List ProblemReport :=
  r.challenges.filterMap fun challenge => reportIn? (AuthorizationHeader.parse challenge)

/-- A report stands in the first of all challenges; or that names no problem, and the body has the
report. -/
def ReportsFirst (r : Response) (report : ProblemReport) : Prop :=
  ∃ first, r.challenges.head? = some first ∧
    (reportIn? (AuthorizationHeader.parse first) = some report ∨
      (AuthorizationHeader.parse first).first? Parameter.problem = none ∧
        reportIn? (Form.parse r.body) = some report)

theorem head?_challenges (r : Response) :
    r.challenges.head? = r.headers.first? "WWW-Authenticate" := by
  rw [challenges, List.head?_map, List.head?_filter]
  rfl

theorem problem?_eq (r : Response) : r.problem? = reportIn? r.problemPairs := by
  rw [problem?, reportIn?]
  cases (r.problemPairs.first? Parameter.problem).filter (· != "") <;> rfl

/-- With a challenge that comes first, it is that or the body where a problem is looked for. -/
theorem problemPairs_of_first {first : String} (h : r.challenges.head? = some first) :
    r.problemPairs = if ((AuthorizationHeader.parse first).first? Parameter.problem).isSome
      then AuthorizationHeader.parse first else Form.parse r.body := by
  rw [head?_challenges] at h
  rw [problemPairs, h]
  rfl

/-- Where there is a challenge, the reports that are found are those that come first. -/
theorem problem?_eq_some_iff (challenged : r.challenges ≠ []) :
    r.problem? = some report ↔ r.ReportsFirst report := by
  obtain ⟨first, rest, all⟩ := List.exists_cons_of_ne_nil challenged
  have head : r.challenges.head? = some first := by rw [all, List.head?_cons]
  have only (P : String → Prop) :
      (∃ other, r.challenges.head? = some other ∧ P other) ↔ P first := by
    rw [head]
    simp
  rw [ReportsFirst, only, problem?_eq, problemPairs_of_first head]
  cases named : (AuthorizationHeader.parse first).first? Parameter.problem with
  | some code => simp
  | none =>
    have silent : reportIn? (AuthorizationHeader.parse first) ≠ some report := by
      intro reported
      have some := isSome_first?_of_reportIn? reported
      rw [named] at some
      cases some
    simp [silent]

theorem challenges_ne_nil (h : r.reports = report :: more) : r.challenges ≠ [] := by
  intro none
  rw [reports, none] at h
  cases h

end Response

namespace Call

open Step

variable {c : Call} {s : Surroundings} {a : Accessor} {q p : Progress} {handle : String}

/-- Renewing a session asks for it to be extended, and for nothing else. -/
theorem ensures_renew {rejected : Bool} (reached : Reaches c s (.extending rejected a handle) q)
    (signs : c.SignsAccess s) :
    Ensures (· = q) (c.renew a handle) (fun _ => AsksNext c a handle q.sent)
      fun _ => AsksNext c a handle q.sent := by
  obtain ⟨held, sound⟩ := reached.sound
  rw [renew]
  apply Ensures.bind (R := fun _ => AsksNext c a handle q.sent)
  · apply Ensures.observing
    rintro q rfl
    rcases ran : c.extendSession a handle q with ⟨stop | b, p⟩
    · exact (extended_of_run sound held ran).asksNext sound held signs
    · exact (extended_of_run sound held ran).asksNext sound held signs
  intro result
  rcases result with (r | f) | b
  · refine Ensures.bind (R := fun _ => AsksNext c a handle q.sent)
      (ensures_discardToken fun p p' asked discarded => ?_) fun _ => ensures_pure fun _ h => h
    rw [AsksNext, discarded.sent]
    exact asked
  · exact ensures_throw fun _ h => h
  · exact ensures_pure fun _ h => h

/-- When the resource is not delivered since the token has expired, the next request extends the
session. -/
theorem deliver_extends {response : Response} {failure : ResourceFailure}
    (reached : Reaches c s (.delivering false a) q)
    (ran : c.fetchResource a q = (.ok response, p))
    (failed : response.resourceFailure? a.hasAccessToken = some failure)
    (recoverable : failure.recoverable = true) (expired : failure.expired = true)
    (held : a.sessionHandle? = some handle) (signs : c.SignsAccess s) :
    AsksNext c a handle p.sent (c.deliver false a q).2 := by
  have extending := reached.move (.outlive ran failed recoverable expired held)
  have recovers : Ensures (· = p) (do c.recover a failure.expired; return Attempt.retry)
      (fun _ => AsksNext c a handle p.sent) fun _ => AsksNext c a handle p.sent := by
    rw [recover, expired, held]
    exact (ensures_renew extending signs).discard.bind fun _ => ensures_pure fun _ h => h
  rw [deliver, bind_run, ran]
  simp only [failed, recoverable, Bool.not_false, Bool.and_self, if_true]
  rcases ended : (do c.recover a failure.expired; return Attempt.retry : Step Attempt) p with
    ⟨stop | attempt, p'⟩
  · exact recovers.stop rfl ended
  · exact recovers.answer rfl ended

end Call

namespace Response

variable {r : Response} {report : ProblemReport} {more : List ProblemReport}

/-- A response is taken for what is reported: for a failure of the resource, which a new token may
mend or an extension of the session; and for a failure of a token endpoint that it comes from, which
may not redirect to begin with. -/
structure TakenFor (r : Response) (report : ProblemReport) : Prop where
  resource : ∀ used, r.resourceFailure? used =
    some ⟨.resourceProblem r.status report.problem report.advice,
      used && report.problem.isTokenFailure, report.problem == .tokenExpired⟩
  endpoint : ∀ endpoint, r.tokenReply endpoint = .error (if r.isRedirect
    then .endpointRedirect endpoint r.status (r.headers.first? "Location")
    else .endpointProblem endpoint r.status report.problem report.advice)
  session : report.problem = .tokenExpired → ∀ (c : Call) (s : Surroundings) (a : Accessor)
    (q p : Progress) (handle : String), Reaches c s (.delivering false a) q →
    c.fetchResource a q = (.ok r, p) → a.sessionHandle? = some handle → c.SignsAccess s →
    AsksNext c a handle p.sent (c.deliver false a q).2

theorem takenFor_of_found (failed : r.isSuccess = false) (found : r.problem? = some report) :
    r.TakenFor report := by
  have resource (used : Bool) : r.resourceFailure? used =
      some ⟨.resourceProblem r.status report.problem report.advice,
        used && report.problem.isTokenFailure, report.problem == .tokenExpired⟩ := by
    rw [resourceFailure?, failed, found]
    rfl
  refine ⟨resource, fun endpoint => ?_, ?_⟩
  · rw [tokenReply, failed, found]
    split
    · rfl
    · rfl
  · intro expired c s a q p handle reached ran held signs
    have used : a.hasAccessToken = true := by
      obtain ⟨info, source, access, -⟩ := reached.sound.2.2.coherent.access held
      rw [Accessor.hasAccessToken_eq, access]
      rfl
    refine deliver_extends reached ran (resource _) ?_ ?_ held signs
    · rw [used, expired]
      rfl
    · rw [expired]
      rfl

/-- Of what the challenges of a failed response report, the first is found if and only if no other
challenge stands before it; or that one names no problem, and the body reports the same. A response
is taken for the report that is found. -/
theorem first_report_found_iff (failed : r.isSuccess = false)
    (reports : r.reports = report :: more) :
    (r.problem? = some report ↔ r.ReportsFirst report) ∧
      (r.ReportsFirst report → r.TakenFor report) := by
  have found : r.problem? = some report ↔ r.ReportsFirst report :=
    problem?_eq_some_iff (challenges_ne_nil reports)
  exact ⟨found, fun first => takenFor_of_found failed (found.2 first)⟩

/-- A failed response with a challenge of another scheme and one that reports an expired token. -/
def challenging (otherFirst : Bool) : Response :=
  let other := ("WWW-Authenticate", "Basic realm=\"photos\"")
  let own := ("WWW-Authenticate", "OAuth oauth_problem=\"token_expired\"")
  { status := 401, headers := if otherFirst then [other, own] else [own, other] }

/-- A gadget's call that gets this response for the resource, and is answered then. -/
def challengedCall (otherFirst : Bool) : Call :=
  photoCall fun n => if n = 0 then ⟨.ok (challenging otherFirst), 0⟩ else
    if n = 1 then refreshed else found

theorem reports_challenging (otherFirst : Bool) :
    (challenging otherFirst).reports = [⟨.tokenExpired, none⟩] := by
  cases otherFirst <;> decide +kernel

/-- If the report comes first, the session is extended, and the resource asked for again. -/
theorem first_report_found_expired :
    (challenging false).problem? = some ⟨.tokenExpired, none⟩ ∧
      (challenging false).TakenFor ⟨.tokenExpired, none⟩ ∧
      ((challengedCall false).fetch sessionStart).2.sent.map (·.purpose) =
        [.resource, .extension, .resource] := by
  obtain ⟨found, taken⟩ := first_report_found_iff rfl (reports_challenging false)
  have first : (challenging false).ReportsFirst ⟨.tokenExpired, none⟩ :=
    ⟨"OAuth oauth_problem=\"token_expired\"", by decide +kernel, .inl (by decide +kernel)⟩
  exact ⟨found.2 first, taken first, by decide +kernel⟩

/-- If the other challenge comes first, the report is missed: the token is forgotten, and approval
asked for. -/
theorem later_report_missed : (challenging true).isSuccess = false ∧
    (challenging true).reports = [⟨.tokenExpired, none⟩] ∧ (challenging true).problem? = none ∧
      (challenging true).resourceFailure? true = some ⟨.tokenNotAccepted, true, false⟩ ∧
      ((challengedCall true).fetch sessionStart).2.sent.map (·.purpose) =
        [.resource, .requestToken] := by
  refine ⟨rfl, reports_challenging true, ?_, ?_, ?_⟩
  · decide +kernel
  · decide +kernel
  · decide +kernel

end Response
end DelegatedFetch
