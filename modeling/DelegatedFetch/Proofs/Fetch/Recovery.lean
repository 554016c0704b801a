import DelegatedFetch.Proofs.Fetch.Upkeep

/-!
# When a call recovers

A call recovers once: after its access token was rejected for the resource, or
its request token when it was to be traded. Which exchange made it recover can
be told from the exchanges alone, and so can whether it has recovered yet.
-/

namespace DelegatedFetch

/-- A response names a code for what is wrong: its first challenge does; or that names none, and the
body does. -/
def Response.NamesProblem (r : Response) (code : String) : Prop :=
  let challenge := match r.headers.first? "WWW-Authenticate" with
    | some header => AuthorizationHeader.parse header
    | none => []
  challenge.first? Parameter.problem = some code ∨
    challenge.first? Parameter.problem = none ∧
      (Form.parse r.body).first? Parameter.problem = some code

/-- A response reports that a token has expired or was revoked; blanks around the code do not count.
-/
def Response.ReportsTokenFailure (r : Response) : Prop :=
  ∃ code, r.NamesProblem code ∧ (trim code = "token_expired" ∨ trim code = "token_revoked")

/-- The resource is not delivered, because the access token is not accepted: that is reported, or the
provider tells nothing but that the request is not authorized. An empty code tells nothing. -/
def Response.RejectsToken (r : Response) : Prop :=
  r.isSuccess = false ∧
    (r.ReportsTokenFailure ∨ r.status = 401 ∧ ∀ code, r.NamesProblem code → code = "")

theorem Problem.isTokenFailure_parse_iff (code : String) : (parse code).isTokenFailure = true ↔
    trim code = "token_expired" ∨ trim code = "token_revoked" := by
  rw [parse]
  cases found : known.find? (·.code == trim code) with
  | some p =>
    have coded : p.code = trim code := by simpa using List.find?_some found
    have mem : p ∈ known := List.mem_of_find?_eq_some found
    rw [← coded]
    cases p with
    | other code => simp [known] at mem
    | _ => decide
  | none =>
    have unknown (p : Problem) (mem : p ∈ known) : p.code ≠ trim code := by
      simpa using List.find?_eq_none.1 found p mem
    have unexpired := unknown tokenExpired (by decide)
    have unrevoked := unknown tokenRevoked (by decide)
    exact ⟨nofun, fun h => (h.elim (unexpired ·.symm) (unrevoked ·.symm)).elim⟩

namespace Response

variable (r : Response)

/-- A code is named where a problem is looked for. -/
theorem namesProblem_iff (code : String) :
    r.NamesProblem code ↔ r.problemPairs.first? Parameter.problem = some code := by
  rw [NamesProblem, problemPairs]
  cases r.headers.first? "WWW-Authenticate" with
  | none => simp [Pairs.first?]
  | some header =>
    cases named : (AuthorizationHeader.parse header).first? Parameter.problem with
    | none => simp [named]
    | some other => simp [named]

/-- What is made of a code that is named. -/
theorem problem?_of_named {code : String}
    (named : r.problemPairs.first? Parameter.problem = some code) :
    r.problem? = if code = "" then none else
      some ⟨Problem.parse code, r.problemPairs.first? Parameter.problemAdvice⟩ := by
  rw [problem?, named, Option.filter_some]
  by_cases empty : code = "" <;> simp [empty]

theorem problem?_of_unnamed (unnamed : r.problemPairs.first? Parameter.problem = none) :
    r.problem? = none := by
  rw [problem?, unnamed, Option.filter_none]

/-- No problem is found if no code is named but an empty one. -/
theorem problem?_eq_none_iff : r.problem? = none ↔ ∀ code, r.NamesProblem code → code = "" := by
  simp only [namesProblem_iff]
  cases named : r.problemPairs.first? Parameter.problem with
  | none => simp [r.problem?_of_unnamed named]
  | some code => simp [r.problem?_of_named named]

theorem reportsTokenFailure_iff : r.ReportsTokenFailure ↔
    ∃ report, r.problem? = some report ∧ report.problem.isTokenFailure = true := by
  simp only [ReportsTokenFailure, namesProblem_iff, ← Problem.isTokenFailure_parse_iff]
  cases named : r.problemPairs.first? Parameter.problem with
  | none => simp [r.problem?_of_unnamed named]
  | some code =>
    have empty : (Problem.parse "").isTokenFailure = false := by decide +kernel
    rw [r.problem?_of_named named]
    by_cases tells : code = "" <;> simp [tells, empty]

/-- Those are the failures that a call recovers from. -/
theorem rejectsToken_iff : r.RejectsToken ↔
    ∃ failure, r.resourceFailure? true = some failure ∧ failure.recoverable = true := by
  rw [RejectsToken, reportsTokenFailure_iff, ← problem?_eq_none_iff, resourceFailure?]
  cases r.isSuccess with
  | true => simp
  | false =>
    cases r.problem? with
    | some report => simp
    | none => by_cases unauthorized : r.status = 401 <;> simp [unauthorized]

/-- A token endpoint refuses a token so that the call may go on without it: it does not redirect, and
reports that the token has expired or was revoked. -/
theorem refusesToken_iff (endpoint : String) :
    (∃ refusal, r.tokenReply endpoint = .error refusal ∧
      (Stop.refused refusal).isTokenFailure = true) ↔
      r.isRedirect = false ∧ r.isSuccess = false ∧ r.ReportsTokenFailure := by
  rw [reportsTokenFailure_iff, tokenReply]
  cases r.isRedirect with
  | true => simp [Stop.isTokenFailure, Refusal.problem?, Refusal.kind]
  | false =>
    cases r.isSuccess with
    | true => simp
    | false => cases r.problem? <;> simp [Stop.isTokenFailure, Refusal.problem?, Refusal.kind]

end Response

/-- An exchange makes a call recover, unless it has recovered before: the access token was rejected
for the resource, or the request token was refused as one that has expired or was revoked. -/
def Exchange.TriggersRecovery (e : Exchange) : Prop :=
  ∃ response, e.response = some response ∧
    (e.purpose = .resource ∧ response.RejectsToken ∨
      e.purpose = .accessToken ∧ response.isRedirect = false ∧ response.isSuccess = false ∧
        response.ReportsTokenFailure)

/-- No exchange has made the call recover. -/
def Unrecovered (sent : List Exchange) : Prop := ∀ e ∈ sent, ¬ e.TriggersRecovery

theorem unrecovered_nil : Unrecovered [] := by simp [Unrecovered]

theorem unrecovered_append {xs ys : List Exchange} :
    Unrecovered (xs ++ ys) ↔ Unrecovered xs ∧ Unrecovered ys := by
  simp only [Unrecovered, List.mem_append, or_imp, forall_and]

theorem unrecovered_singleton {e : Exchange} : Unrecovered [e] ↔ ¬ e.TriggersRecovery := by
  simp only [Unrecovered, List.mem_singleton, forall_eq]

namespace Call

variable {c : Call} {s : Surroundings} {a : Accessor} {p p' q : Progress} {x : Exchange}
  {purpose : Purpose} {g g' : Stage}

theorem not_triggersRecovery_of_purpose
    (other : x.purpose ≠ .resource ∧ x.purpose ≠ .accessToken) : ¬ x.TriggersRecovery := by
  rintro ⟨response, -, ⟨resource, -⟩ | ⟨trade, -⟩⟩
  · exact other.1 resource
  · exact other.2 trade

/-- An exchange that issues a token rejects none. -/
theorem not_triggersRecovery_of_issued (issued : x.issued? ≠ none) : ¬ x.TriggersRecovery := by
  rintro ⟨response, answered, ⟨resource, -⟩ | ⟨-, refuses⟩⟩
  · exact issued (Exchange.issued?_of_purpose (by simp [resource]))
  · obtain ⟨r, refused, -⟩ := (response.refusesToken_iff x.purpose.label).2 refuses
    exact issued (Exchange.issued?_of_refused answered refused)

theorem issued_of_tokenInfo? {info : TokenInfo} {time : UInt64}
    (issued : x.tokenInfo? time = some info) : x.issued? = some info.token := by
  rw [x.issued?_eq time, issued]
  rfl

/-- What the exchanges tell at each stage about whether the call has recovered. -/
def RecoveredAt : Stage → Progress → Prop
  | .attempting recovered, p | .built recovered _, p | .choosing recovered _, p
  | .delivering recovered _, p | .extending recovered _ _, p | .forgetting recovered _, p =>
    Unrecovered p.sent ↔ recovered = false
  | .ended _, _ => True

theorem RecoveredAt.mended {rejected : Bool} (h : Unrecovered p.sent ↔ rejected = false)
    (a : Accessor) : RecoveredAt (.mended rejected a) p := by
  cases rejected with
  | true => exact h
  | false => exact h

/-- A harmless exchange changes nothing. -/
theorem Exchanged.unrecovered_iff (h : Exchanged c s a purpose q x p)
    (harmless : ¬ x.TriggersRecovery) : Unrecovered p.sent ↔ Unrecovered q.sent := by
  rw [h.sent, unrecovered_append, unrecovered_singleton]
  exact and_iff_left harmless

theorem Exchanged.recovered (h : Exchanged c s a purpose q x p) (triggers : x.TriggersRecovery) :
    Unrecovered p.sent ↔ true = false := by
  rw [h.sent, unrecovered_append, unrecovered_singleton]
  simp [triggers]

/-- The resource was asked for with an access token that was rejected. -/
theorem Exchanged.triggersRecovery {response : Response} {failure : ResourceFailure}
    (h : Exchanged c s a .resource q x p) (answered : x.response = some response)
    (failed : response.resourceFailure? a.hasAccessToken = some failure)
    (recoverable : failure.recoverable = true) : x.TriggersRecovery := by
  obtain ⟨info, source, access⟩ := access_of_rejected ⟨failure, failed, recoverable⟩
  have used : a.hasAccessToken = true := by
    rw [Accessor.hasAccessToken_eq, access]
    rfl
  exact ⟨response, answered, .inl ⟨h.purpose,
    response.rejectsToken_iff.2 ⟨failure, used ▸ failed, recoverable⟩⟩⟩

/-- A response for the resource that is final makes no call recover that has used an access token. -/
theorem Exchanged.not_triggersRecovery {response : Response}
    (h : Exchanged c s a .resource q x p) (answered : x.response = some response)
    (used : a.hasAccessToken = true)
    (final : ∀ failure, response.resourceFailure? a.hasAccessToken = some failure →
      failure.recoverable = false) : ¬ x.TriggersRecovery := by
  rintro ⟨response', answered', ⟨-, rejects⟩ | ⟨trade, -⟩⟩
  · obtain rfl := Option.some.inj (answered.symm.trans answered')
    obtain ⟨failure, failed, recoverable⟩ := response.rejectsToken_iff.1 rejects
    rw [← used] at failed
    cases (final failure failed).symm.trans recoverable
  · cases h.purpose.symm.trans trade

theorem Fetched.recovered {response : Response} {failure : ResourceFailure}
    (answers : OnlySuccesses q.cache) (h : Fetched c s a q (.ok response) p)
    (failed : response.resourceFailure? a.hasAccessToken = some failure)
    (recoverable : failure.recoverable = true) :
    ∃ x, Exchanged c s a .resource q x p ∧ x.response = some response ∧ x.TriggersRecovery := by
  cases h with
  | cached still held =>
    exact absurd ⟨failure, failed, recoverable⟩ (not_rejected_of_isSuccess (held.isSuccess answers))
  | answered exchanged answered =>
    exact ⟨_, exchanged, answered, exchanged.triggersRecovery answered failed recoverable⟩

/-- A request token that was refused as one that has expired or was revoked, was refused by the
provider. -/
theorem Traded.recovered {stop : Stop} (h : Traded c s a q (.error stop) p)
    (failed : stop.isTokenFailure = true) :
    ∃ x, Exchanged c s a .accessToken q x p ∧ x.issued? = none ∧ x.TriggersRecovery := by
  cases h with
  | foreign other =>
    rw [other] at failed
    cases failed
  | unanswered unanswered =>
    cases unanswered with
    | unsigned _ _ other =>
      rw [other] at failed
      cases failed
    | unreached => cases failed
  | refused exchanged refuses =>
    obtain ⟨response, answered, refused⟩ := refuses.failure failed
    exact ⟨_, exchanged, refuses.silent, response, answered,
      .inr ⟨exchanged.purpose, (response.refusesToken_iff _).1 ⟨_, refused, failed⟩⟩⟩

theorem RecoveredAt.extended {handle : String} {outcome : Except Stop Accessor}
    (extended : Extended c s a handle q outcome p) : Unrecovered p.sent ↔ Unrecovered q.sent := by
  have harmless {x : Exchange} {p : Progress} (exchanged : Exchanged c s a .extension q x p) :
      Unrecovered p.sent ↔ Unrecovered q.sent :=
    exchanged.unrecovered_iff (not_triggersRecovery_of_purpose (by simp [exchanged.purpose]))
  cases extended with
  | unanswered unanswered =>
    cases unanswered with
    | unsigned still => rw [still.sent]
    | unreached exchanged => exact harmless exchanged
  | refused exchanged | unkept exchanged => exact harmless exchanged
  | extended exchanged issued kept =>
    rw [kept.sent]
    exact harmless exchanged

theorem RecoveredAt.move (sound : SoundAt c s g q) (renewed : RenewedAt c s g q)
    (clean : c.request.checkCaller = .ok ()) (h : RecoveredAt g q) (move : c.Move g q g' p) :
    RecoveredAt g' p := by
  cases move with
  | build | keep | sign | expire | use => exact h
  | unbuilt | unreached | approve | untraded | deliver | undelivered | unfetched => trivial
  | extend ran =>
    exact .mended ((RecoveredAt.extended (extended_of_run sound.2 sound.1 ran)).trans h) _
  | unextended ran => exact (RecoveredAt.extended (extended_of_run sound.2 sound.1 ran)).trans h
  | forget ran =>
    refine .mended ?_ _
    rw [(discarded_of_run ran).sent]
    exact h
  | trade unsettled ran =>
    have traded := traded_of_run sound (sound.2.delegated unsettled) ran
    cases traded with
    | traded exchanged issued kept =>
      have issued := issued_of_tokenInfo? issued
      have same := exchanged.unrecovered_iff (not_triggersRecovery_of_issued (by simp [issued]))
      rw [RecoveredAt, kept.sent]
      exact same.trans h
  | startOver unsettled ran failed =>
    have traded := traded_of_run sound (sound.2.delegated unsettled) ran
    obtain ⟨x, exchanged, -, triggers⟩ := traded.recovered failed
    exact exchanged.recovered triggers
  | outlive ran failed recoverable | reject ran failed recoverable =>
    have fetched := fetched_of_run sound.2 clean sound.1 ran
    obtain ⟨x, exchanged, -, triggers⟩ := fetched.recovered renewed.1.answers failed recoverable
    exact exchanged.recovered triggers

theorem Reaches.recovered (answers : OnlySuccesses s.cache) (h : Reaches c s g p) :
    RecoveredAt g p := by
  induction h with
  | unchecked => trivial
  | start => exact iff_of_true unrecovered_nil rfl
  | move before move ih => exact ih.move before.sound (before.renewed answers) (before.clean move) move

/-- Before the first exchange, the call is as it began. -/
def BegunAt (c : Call) (s : Surroundings) : Stage → Progress → Prop
  | .attempting false, p | .built false _, p | .extending false _ _, p => p = c.begun s
  | _, _ => True

theorem BegunAt.move (h : BegunAt c s g q) (move : c.Move g q g' p) : BegunAt c s g' p := by
  cases move with
  | @build recovered => cases recovered <;> exact h
  | expire => exact h
  | @extend rejected => cases rejected <;> trivial
  | @forget rejected => cases rejected <;> trivial
  | unbuilt | sign | keep | unextended | unreached | approve | use | trade | startOver | untraded
  | deliver | undelivered | outlive | reject | unfetched => trivial

theorem Reaches.begun (h : Reaches c s g p) : BegunAt c s g p := by
  induction h with
  | unchecked => trivial
  | start => rfl
  | move before move ih => exact ih.move move

end Call
end DelegatedFetch
