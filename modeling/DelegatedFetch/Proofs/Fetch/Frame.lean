import DelegatedFetch.Proofs.Fetch.Session

/-!
# The share of one call in the store

A call looks up its consumer, and reads and changes the token under its own key.
Two stores that agree on these are the same for it: it sends the same requests,
comes to the same end and leaves them the same again. Everything else in a store
stays as it was; so calls with different keys do not notice each other, and can
be made in either order.
-/

namespace DelegatedFetch

namespace Call

open Step

/-- The key of a call's token in the store; there is none without a viewer. -/
def tokenKey (c : Call) : Except Refusal TokenKey :=
  TokenKey.of c.token c.args.service c.args.tokenName

/-- Two stores that are the same for a call: in their consumers, and in the token under its key. -/
structure SameFor (c : Call) (store store' : Store) : Prop where
  consumers : ∀ name, store'.consumers.find? name = store.consumers.find? name
  defaultKey : store'.defaultKey = store.defaultKey
  token : ∀ key, c.tokenKey = .ok key → store'.tokens.find? key = store.tokens.find? key

/-- The same progress over another store, which is the same for the call. -/
inductive AlikeFor (c : Call) (p : Progress) : Progress → Prop
  | over {store : Store} (same : c.SameFor p.store store) : AlikeFor c p { p with store }

/-- A part of a call that sees its share of the store only: over stores that are the same for the
call it ends the same, and leaves the same for the call. -/
def Local {α : Type} (c : Call) (x : Step α) : Prop :=
  ∀ p p', c.AlikeFor p p' → (x p').1 = (x p).1 ∧ c.AlikeFor (x p).2 (x p').2

variable {c : Call} {α β : Type} {x : Step α} {store store' : Store} {p p' : Progress}

theorem AlikeFor.sameFor (alike : c.AlikeFor p p') : c.SameFor p.store p'.store := by
  obtain ⟨same⟩ := alike
  exact same

theorem AlikeFor.sent (alike : c.AlikeFor p p') : p'.sent = p.sent := by
  obtain ⟨same⟩ := alike
  rfl

theorem local_pure (a : α) : c.Local (pure a) := fun _ _ alike => ⟨rfl, alike⟩

theorem local_throw (stop : Stop) : c.Local (throw stop : Step α) := fun _ _ alike => ⟨rfl, alike⟩

/-- What would follow a stop does not matter. -/
theorem local_throw_bind (stop : Stop) (f : β → Step α) : c.Local (throw stop >>= f) :=
  fun _ _ alike => ⟨rfl, alike⟩

theorem local_ofExcept (x : Except Refusal α) : c.Local (ofExcept x) := by
  cases x with
  | ok a => exact local_pure a
  | error r => exact local_throw (.refused r)

theorem Local.bind {f : α → Step β} (hx : c.Local x) (hf : ∀ a, c.Local (f a)) :
    c.Local (x >>= f) := by
  intro p p' alike
  obtain ⟨told, left⟩ := hx p p' alike
  rw [bind_run, bind_run]
  generalize x p = ran, x p' = ran' at told left ⊢
  obtain ⟨outcome, q⟩ := ran
  obtain ⟨outcome', q'⟩ := ran'
  obtain rfl : outcome' = outcome := told
  cases outcome' with
  | ok a => exact hf a q q' left
  | error stop => exact ⟨rfl, left⟩

theorem Local.observing (hx : c.Local x) : c.Local (observing x) := by
  intro p p' alike
  obtain ⟨told, left⟩ := hx p p' alike
  rw [observing_run, observing_run]
  exact ⟨congrArg Except.ok told, left⟩

theorem Local.discard (hx : c.Local x) : c.Local (discard x) := hx.bind fun _ => local_pure ()

/-- The progress may be looked at, if what follows does not depend on the rest of the store. -/
theorem local_get_bind {f : Progress → Step α}
    (sees : ∀ p p', c.AlikeFor p p' → f p' = f p) (hf : ∀ q, c.Local (f q)) :
    c.Local (get >>= f) := by
  intro p p' alike
  rw [get_bind_run, get_bind_run, sees p p' alike]
  exact hf p p p' alike

theorem local_now : c.Local now := by
  refine local_get_bind (fun p p' alike => ?_) fun q => local_pure q.clock.millis
  cases alike
  rfl

theorem local_modify {f : Progress → Progress}
    (keeps : ∀ p p', c.AlikeFor p p' → c.AlikeFor (f p) (f p')) : c.Local (modify f) :=
  fun p p' alike => ⟨rfl, keeps p p' alike⟩

theorem local_modifyState (f : ClientState → ClientState) : c.Local (modifyState f) := by
  refine local_modify fun p p' alike => ?_
  obtain ⟨same⟩ := alike
  exact .over same

/-- Two changes of stores are refused alike, or give stores that are the same for a call. -/
inductive ChangedAlike (c : Call) : Except Refusal Store → Except Refusal Store → Prop
  | refused (r : Refusal) : ChangedAlike c (.error r) (.error r)
  | changed {store store' : Store} (same : c.SameFor store store') :
      ChangedAlike c (.ok store) (.ok store')

theorem local_changeStore_bind {change : Store → Except Refusal Store} {f : PUnit → Step α}
    (alike : ∀ store store', c.SameFor store store' →
      ChangedAlike c (change store) (change store'))
    (hf : ∀ u, c.Local (f u)) :
    c.Local (get >>= fun q => ofExcept (change q.store) >>= fun store =>
      modify (fun p => { p with store }) >>= f) := by
  intro p p' same
  obtain @⟨store, same⟩ := same
  rw [get_bind_run, get_bind_run]
  have changed := alike _ _ same
  dsimp only
  generalize change p.store = result, change store = result' at changed ⊢
  cases changed with
  | refused r => exact ⟨rfl, .over same⟩
  | @changed left left' same' => exact hf ⟨⟩ { p with store := left } _ (.over same')

theorem local_send (purpose : Purpose) (signed : Request) : c.Local (c.send purpose signed) := by
  intro p p' same
  obtain ⟨same⟩ := same
  rw [send, get_bind_run, get_bind_run]
  simp only [set_bind_run]
  cases (c.replies p.sent.length).outcome with
  | ok response => exact ⟨rfl, .over same⟩
  | error text => exact ⟨rfl, .over same⟩

theorem local_sign (r : Request) (credentials : Credentials) (extra : Pairs)
    (placement : Placement) : c.Local (sign r credentials extra placement) := by
  intro p p' same
  obtain ⟨same⟩ := same
  rw [sign, get_bind_run, get_bind_run]
  simp only [set_bind_run]
  cases (r.sign credentials extra placement p.clock p.entropy).1 with
  | ok signed => exact ⟨rfl, .over same⟩
  | error refusal => exact ⟨rfl, .over same⟩

theorem local_exchange (purpose : Purpose) (endpoint : Endpoint) (credentials : Credentials)
    (extra : Pairs) : c.Local (c.exchange purpose endpoint credentials extra) :=
  (local_sign _ _ _ _).bind fun signed => local_send purpose signed

theorem SameFor.setToken (same : c.SameFor store store') (info : TokenInfo) :
    ChangedAlike c (store.setToken c.token c.args.service c.args.tokenName info)
      (store'.setToken c.token c.args.service c.args.tokenName info) := by
  rw [Store.setToken, Store.setToken]
  cases own : TokenKey.of c.token c.args.service c.args.tokenName with
  | error r => exact .refused r
  | ok key =>
    refine .changed ⟨same.consumers, same.defaultKey, fun key' own' => ?_⟩
    rw [Table.find?_insert, Table.find?_insert, same.token key' own']

theorem SameFor.removeToken (same : c.SameFor store store') :
    ChangedAlike c (store.removeToken c.token c.args.service c.args.tokenName)
      (store'.removeToken c.token c.args.service c.args.tokenName) := by
  rw [Store.removeToken, Store.removeToken]
  cases own : TokenKey.of c.token c.args.service c.args.tokenName with
  | error r => exact .refused r
  | ok key =>
    refine .changed ⟨same.consumers, same.defaultKey, fun key' own' => ?_⟩
    rw [Table.find?_erase, Table.find?_erase, same.token key' own']

theorem SameFor.consumer_eq (same : c.SameFor store store') (t : SecurityToken) (service : String)
    (provider : Option Provider) :
    store'.consumer t service provider = store.consumer t service provider := by
  simp only [Store.consumer, Store.registered?, Store.defaultFor?, same.consumers, same.defaultKey]

theorem SameFor.token?_eq (same : c.SameFor store store') :
    store'.token? c.token c.args.service c.args.tokenName =
      store.token? c.token c.args.service c.args.tokenName := by
  rw [Store.token?, Store.token?]
  cases own : TokenKey.of c.token c.args.service c.args.tokenName with
  | error r => rfl
  | ok key => exact congrArg Except.ok (same.token key own)

/-- A request token that is spent changes nothing about where an access token is kept. -/
theorem arguments_place (c : Call) (p : Progress) :
    (c.arguments p).service = c.args.service ∧ (c.arguments p).tokenName = c.args.tokenName := by
  rw [arguments]
  split
  · exact ⟨rfl, rfl⟩
  · exact ⟨rfl, rfl⟩

theorem SameFor.build_eq (same : c.SameFor store store') (p : Progress) (state : ClientState) :
    Accessor.build store' (c.arguments p) c.token c.services state =
      Accessor.build store (c.arguments p) c.token c.services state := by
  obtain ⟨service, tokenName⟩ := c.arguments_place p
  simp only [Accessor.build, Accessor.delegatedToken, service, tokenName, same.consumer_eq,
    same.token?_eq]

theorem local_persist (info : TokenInfo) : c.Local (c.persist info) := by
  rw [persist]
  split
  · exact local_changeStore_bind (fun _ _ same => same.setToken info) fun _ =>
      (local_modifyState _).bind fun _ => local_pure _
  · exact (local_modifyState _).bind fun _ => local_pure _

theorem local_discardToken : c.Local c.discardToken := by
  rw [discardToken]
  split
  · exact local_changeStore_bind (fun _ _ same => same.removeToken) fun _ => local_modifyState _
  · exact local_modifyState _

theorem local_forgetRequestToken (a : Accessor) : c.Local (forgetRequestToken a) := by
  rw [forgetRequestToken]
  split
  · refine (local_modify fun p p' alike => ?_).bind fun _ => local_modifyState _
    obtain ⟨same⟩ := alike
    exact .over same
  · exact local_modifyState _

theorem local_requestApproval (a : Accessor) : c.Local (c.requestApproval a) := by
  rw [requestApproval]
  dsimp only
  split
  case isFalse => exact local_throw_bind _ _
  refine (local_ofExcept _).bind fun provider => (local_exchange _ _ _ _).bind fun response =>
    (local_ofExcept _).bind fun reply => (local_ofExcept _).bind ?_
  rintro ⟨token, secret⟩
  refine (local_modifyState _).bind fun _ => local_modify fun p p' alike => ?_
  obtain ⟨same⟩ := alike
  exact .over same

theorem local_exchangeRequestToken (a : Accessor) : c.Local (c.exchangeRequestToken a) := by
  rw [exchangeRequestToken]
  dsimp only
  split
  case isFalse => exact local_throw_bind _ _
  exact (local_ofExcept _).bind fun provider => (local_exchange _ _ _ _).bind fun response =>
    (local_ofExcept _).bind fun reply => local_now.bind fun time =>
    (local_ofExcept _).bind fun info => (local_forgetRequestToken a).bind fun _ =>
    (local_persist info).bind fun source => local_pure _

theorem local_extendSession (a : Accessor) (handle : String) : c.Local (c.extendSession a handle) := by
  rw [extendSession]
  exact (local_ofExcept _).bind fun provider => (local_exchange _ _ _ _).bind fun response =>
    (local_ofExcept _).bind fun reply => local_now.bind fun time =>
    (local_ofExcept _).bind fun info => (local_persist _).bind fun source => local_pure _

theorem local_cached? (key : Option String) : c.Local (cached? key) := by
  intro p p' same
  obtain ⟨same⟩ := same
  obtain ⟨⟨clock, entropy, held, cache⟩, rest⟩ := p
  rw [cached?, get_bind_run, get_bind_run]
  cases key with
  | none => exact ⟨rfl, .over same⟩
  | some key =>
    cases cache with
    | none => exact ⟨rfl, .over same⟩
    | some cache => exact ⟨rfl, .over same⟩

theorem local_keep (key : Option String) (response : Response) : c.Local (keep key response) := by
  refine local_modify fun p p' alike => ?_
  obtain ⟨same⟩ := alike
  cases key with
  | none => exact .over same
  | some key => exact .over same

theorem local_fetchResource (a : Accessor) : c.Local (c.fetchResource a) := by
  rw [fetchResource]
  refine local_get_bind (fun p p' alike => ?_) fun q => (local_cached? _).bind fun hit => ?_
  · cases alike
    rfl
  · cases hit with
    | some hit => exact local_pure hit
    | none =>
      exact (local_sign _ _ _ _).bind fun signed => (local_send _ signed).bind fun response =>
        (local_keep _ response).bind fun _ => local_pure response

theorem local_renew (a : Accessor) (handle : String) : c.Local (c.renew a handle) := by
  rw [renew]
  refine (local_extendSession a handle).observing.bind fun extended => ?_
  rcases extended with (r | f) | b
  · exact local_discardToken.bind fun _ => local_pure none
  · exact local_throw _
  · exact local_pure (some b)

theorem local_recover (a : Accessor) (expired : Bool) : c.Local (c.recover a expired) := by
  rw [recover]
  split
  · exact (local_renew a _).discard
  · exact local_discardToken

theorem local_deliver (recovered : Bool) (a : Accessor) : c.Local (c.deliver recovered a) := by
  rw [deliver]
  refine (local_fetchResource a).bind fun response => ?_
  split
  · exact local_pure _
  split
  · exact (local_recover a _).bind fun _ => local_pure _
  · exact local_throw _

theorem local_complete (recovered : Bool) (a : Accessor) : c.Local (c.complete recovered a) := by
  rw [complete]
  refine (local_exchangeRequestToken a).observing.bind fun traded => ?_
  cases traded with
  | ok b => exact local_deliver recovered b
  | error stop =>
    refine (local_forgetRequestToken a).bind fun _ => ?_
    split
    · exact local_pure _
    · exact local_throw _

theorem local_refresh (recovered : Bool) (a : Accessor) : c.Local (c.refresh recovered a) := by
  rw [refresh]
  refine local_now.bind fun time => ?_
  split
  · split
    · exact (local_renew a _).bind fun _ => local_pure _
    · exact local_pure a
  · exact local_pure a

theorem local_delegatedFetch (recovered : Bool) (a : Accessor) :
    c.Local (c.delegatedFetch recovered a) := by
  rw [delegatedFetch]
  refine (local_refresh recovered a).bind fun b => ?_
  split
  · split
    · exact (local_requestApproval b).bind fun _ => local_pure _
    · exact local_deliver recovered b
  · exact local_complete recovered b
  · exact local_deliver recovered b

theorem local_attempt (recovered : Bool) : c.Local (c.attempt recovered) := by
  rw [attempt]
  refine local_get_bind (fun p p' alike => ?_) fun q => (local_ofExcept _).bind fun a => ?_
  · obtain ⟨same⟩ := alike
    dsimp only
    rw [← same.build_eq p p.state]
    rfl
  · split
    · exact local_deliver recovered a
    · exact local_delegatedFetch recovered a

theorem local_loop (c : Call) : c.Local (c.loop false) := by
  have last : c.Local (c.loop true) := by
    intro p p' alike
    obtain ⟨told, left⟩ := local_attempt true p p' alike
    rw [loop_eq, loop_eq]
    generalize ran : c.attempt true p = result, c.attempt true p' = result' at told left ⊢
    obtain ⟨outcome, q⟩ := result
    obtain ⟨outcome', q'⟩ := result'
    obtain rfl : outcome' = outcome := told
    rcases outcome' with stop | (response | _)
    · exact ⟨rfl, left⟩
    · exact ⟨rfl, left⟩
    · exact absurd rfl (c.attempt_concludes.answer trivial ran)
  intro p p' alike
  obtain ⟨told, left⟩ := local_attempt false p p' alike
  rw [loop_eq, loop_eq]
  generalize c.attempt false p = result, c.attempt false p' = result' at told left ⊢
  obtain ⟨outcome, q⟩ := result
  obtain ⟨outcome', q'⟩ := result'
  obtain rfl : outcome' = outcome := told
  rcases outcome' with stop | (response | _)
  · exact ⟨rfl, left⟩
  · exact ⟨rfl, left⟩
  · exact last q q' left

theorem local_run (c : Call) : c.Local c.run := by
  rw [run]
  exact (local_ofExcept _).bind fun _ => (local_ofExcept _).bind fun _ => c.local_loop

/-- A call over stores that are the same for it ends the same. -/
theorem fetch_alike (s : Surroundings) (same : c.SameFor store store') :
    (c.fetch { s with store := store' }).1 = (c.fetch { s with store }).1 ∧
      c.AlikeFor (c.fetch { s with store }).2 (c.fetch { s with store := store' }).2 := by
  have start : c.AlikeFor (c.begun { s with store }) (c.begun { s with store := store' }) :=
    .over same
  obtain ⟨told, left⟩ := c.local_run _ _ start
  rw [fetch, fetch]
  generalize c.run (c.begun { s with store }) = ran,
    c.run (c.begun { s with store := store' }) = ran' at told left ⊢
  obtain ⟨outcome, p⟩ := ran
  obtain ⟨outcome', p'⟩ := ran'
  obtain rfl : outcome' = outcome := told
  obtain ⟨same'⟩ := left
  rcases outcome' with (r | f) | response
  · exact ⟨rfl, .over same'⟩
  · exact ⟨rfl, .over same'⟩
  · exact ⟨rfl, .over same'⟩

/-- A store was changed for a call: under the key of its token at most. -/
structure ChangedFor (c : Call) (store store' : Store) : Prop where
  consumers : store'.consumers = store.consumers
  defaultKey : store'.defaultKey = store.defaultKey
  others : ∀ key, c.tokenKey ≠ .ok key → store'.tokens.find? key = store.tokens.find? key

theorem changedFor_fetch (c : Call) (s : Surroundings) :
    c.ChangedFor s.store (c.fetch s).2.store := by
  have traced := c.invariant_fetch s
  exact ⟨traced.consumers, traced.defaultKey, traced.others⟩

/-- No token is kept for both of two calls. -/
def Apart (c d : Call) : Prop := ∀ key, c.tokenKey = .ok key → d.tokenKey ≠ .ok key

variable {d : Call}

theorem Apart.symm (h : c.Apart d) : d.Apart c := fun key other own => h key own other

/-- A call does not notice what was changed for another one. -/
theorem ChangedFor.sameFor (h : d.ChangedFor store store') (apart : c.Apart d) :
    c.SameFor store store' :=
  ⟨fun name => by rw [h.consumers], h.defaultKey, fun key own => h.others key (apart key own)⟩

/-- Two calls, one after the other, over one store. All else that each of them finds is its own. -/
def inTurn (c d : Call) (s t : Surroundings) (store : Store) :
    (Except Failure Response × Progress) × (Except Failure Response × Progress) :=
  let first := c.fetch { s with store }
  (first, d.fetch { t with store := first.2.store })

theorem changedFor_first (c d : Call) (s t : Surroundings) (store : Store) :
    c.ChangedFor store (inTurn c d s t store).1.2.store := by
  dsimp only [inTurn]
  exact c.changedFor_fetch { s with store }

theorem changedFor_second (c d : Call) (s t : Surroundings) (store : Store) :
    d.ChangedFor (inTurn c d s t store).1.2.store (inTurn c d s t store).2.2.store := by
  dsimp only [inTurn]
  exact d.changedFor_fetch { t with store := (c.fetch { s with store }).2.store }

/-- A call that comes second ends as it does when it comes first. -/
theorem fetch_second (apart : c.Apart d) (s t : Surroundings) (store : Store) :
    (inTurn d c t s store).2.1 = (inTurn c d s t store).1.1 ∧
      c.AlikeFor (inTurn c d s t store).1.2 (inTurn d c t s store).2.2 := by
  have changed := d.changedFor_fetch { t with store }
  dsimp only [inTurn]
  exact fetch_alike s (changed.sameFor apart)

end Call

/-- Nothing that is looked up tells two stores apart. -/
structure Store.Agrees (store store' : Store) : Prop where
  consumers : ∀ name, store.consumers.find? name = store'.consumers.find? name
  defaultKey : store.defaultKey = store'.defaultKey
  tokens : ∀ key, store.tokens.find? key = store'.tokens.find? key

namespace Call

variable {c d : Call}

/-- Two changes of a store under different keys come to the same in either order, if each is the same
where it comes second. -/
theorem agrees_of_changed {base byC byD both both' : Store} (apart : c.Apart d)
    (cFirst : c.ChangedFor base byC) (dSecond : d.ChangedFor byC both)
    (dFirst : d.ChangedFor base byD) (cSecond : c.ChangedFor byD both')
    (cSame : c.SameFor byC both') (dSame : d.SameFor byD both) : both.Agrees both' where
  consumers name := by
    rw [dSecond.consumers, cFirst.consumers, cSecond.consumers, dFirst.consumers]
  defaultKey := by
    rw [dSecond.defaultKey, cFirst.defaultKey, cSecond.defaultKey, dFirst.defaultKey]
  tokens key := by
    by_cases ofC : c.tokenKey = .ok key
    · rw [dSecond.others key (apart key ofC), cSame.token key ofC]
    by_cases ofD : d.tokenKey = .ok key
    · rw [dSame.token key ofD, cSecond.others key ofC]
    · rw [dSecond.others key ofD, cFirst.others key ofC, cSecond.others key ofC,
        dFirst.others key ofD]

/-- Whichever of two calls comes first, they leave the same store. -/
theorem agrees_inTurn (apart : c.Apart d) (s t : Surroundings) (store : Store) :
    (inTurn c d s t store).2.2.store.Agrees (inTurn d c t s store).2.2.store := by
  have cSame := (fetch_second apart s t store).2.sameFor
  have dSame := (fetch_second apart.symm t s store).2.sameFor
  exact agrees_of_changed apart (changedFor_first c d s t store) (changedFor_second c d s t store)
    (changedFor_first d c t s store) (changedFor_second d c t s store) cSame dSame

/-- A call sees its consumers and the token under its own key: over stores that are the same there, it
ends the same, sends the same and leaves the same. All else in the store it leaves as it was, and
without a viewer everything. So two calls for which no token is kept in common can be made in either
order: each ends the same and sends the same, and the store is the same in the end. -/
theorem own_entry_only (c : Call) (s : Surroundings) :
    (∀ store, c.SameFor s.store store →
      (c.fetch { s with store }).1 = (c.fetch s).1 ∧
        (c.fetch { s with store }).2.sent = (c.fetch s).2.sent ∧
        c.SameFor (c.fetch s).2.store (c.fetch { s with store }).2.store) ∧
      c.ChangedFor s.store (c.fetch s).2.store ∧
      (c.token.viewer = none → ∀ key,
        (c.fetch s).2.store.tokens.find? key = s.store.tokens.find? key) ∧
      ∀ d t store, c.Apart d →
        (inTurn d c t s store).2.1 = (inTurn c d s t store).1.1 ∧
          (inTurn c d s t store).2.1 = (inTurn d c t s store).1.1 ∧
          (inTurn d c t s store).2.2.sent = (inTurn c d s t store).1.2.sent ∧
          (inTurn c d s t store).2.2.sent = (inTurn d c t s store).1.2.sent ∧
          (inTurn c d s t store).2.2.store.Agrees (inTurn d c t s store).2.2.store := by
  have changed := c.changedFor_fetch s
  refine ⟨fun store same => ?_, changed, fun stranger key => changed.others key ?_,
    fun d t store apart => ?_⟩
  · obtain ⟨told, alike⟩ := fetch_alike s same
    exact ⟨told, alike.sent, alike.sameFor⟩
  · rw [tokenKey, TokenKey.of, stranger]
    exact nofun
  · obtain ⟨cTold, cAlike⟩ := fetch_second apart s t store
    obtain ⟨dTold, dAlike⟩ := fetch_second apart.symm t s store
    exact ⟨cTold, dTold, cAlike.sent, dAlike.sent, agrees_inTurn apart s t store⟩

/-- A call like that of the first visit, by another viewer on a page of his own. -/
def bobsCall : Call :=
  { firstVisit.call with token := { firstVisit.call.token with
    owner := some "bob", viewer := some "bob" } }

theorem apart_bobsCall : firstVisit.call.Apart bobsCall := by
  intro key own other
  have same := (TokenKey.viewer_of own).symm.trans (TokenKey.viewer_of other)
  exact absurd same (by decide)

/-- Two viewers who trade their tokens do not notice each other: a store with the other one's token is
the same for each, and both tokens are there in the end. -/
theorem own_entry_only_two_viewers :
    let start := firstVisit.start
    let bobsStore := (bobsCall.fetch start).2.store
    let bobFirst := inTurn bobsCall firstVisit.call start start start.store
    let annFirst := inTurn firstVisit.call bobsCall start start start.store
    (firstVisit.call.fetch { start with store := bobsStore }).1 = (firstVisit.call.fetch start).1 ∧
      bobFirst.2.1 = annFirst.1.1 ∧ annFirst.2.2.store.Agrees bobFirst.2.2.store ∧
      bobFirst.2.2.store.tokens.find? ⟨"gadget", "photos", "ann", 0, ""⟩ =
        some ⟨"granted", "hidden", none, none⟩ ∧
      bobFirst.2.2.store.tokens.find? ⟨"gadget", "photos", "bob", 0, ""⟩ =
        some ⟨"granted", "hidden", none, none⟩ := by
  intro start bobsStore bobFirst annFirst
  obtain ⟨alike, -, -, commute⟩ := own_entry_only firstVisit.call start
  have unseen := (bobsCall.changedFor_fetch start).sameFor apart_bobsCall
  obtain ⟨told, -, -, -, agree⟩ := commute bobsCall start start.store apart_bobsCall
  exact ⟨(alike bobsStore unseen).1, told, agree, by decide +kernel, by decide +kernel⟩

end Call
end DelegatedFetch
