import DelegatedFetch.Proofs.Fetch.Rules
import DelegatedFetch.Proofs.Table

/-!
# What a cache holds

A cache gains nothing but the success that a call has got, and gives nothing
back that it does not hold under the key. So one that holds successes only
answers with successes, and an answer from it is never a reason to mend a
token.
-/

namespace DelegatedFetch

namespace Cache

variable {cache later : Cache} {key : String} {now : Int} {got : Option Response}
  {response : Response}

/-- A cache in use gains nothing over time but the success that was got, if any was. -/
structure Gains (cache : Cache) (got : Option Response) (later : Cache) : Prop where
  enabled : later.isEnabled = cache.isEnabled
  held : ∀ entry ∈ later.entries.entries, entry ∈ cache.entries.entries ∨
    entry.2.response.isSuccess = true ∧ got = some entry.2.response

theorem Gains.refl : cache.Gains got cache := ⟨rfl, fun _ => .inl⟩

theorem Gains.weaken (h : cache.Gains none later) : cache.Gains got later :=
  ⟨h.enabled, fun entry mem => (h.held entry mem).imp_right nofun⟩

theorem Gains.trans {last : Cache} (h : cache.Gains got later) (h' : later.Gains got last) :
    cache.Gains got last :=
  ⟨h'.enabled.trans h.enabled, fun entry mem => (h'.held entry mem).elim (h.held entry) .inr⟩

/-- Nothing is gained by what is not a success. -/
theorem Gains.none_of_failure (h : cache.Gains got later)
    (failure : ∀ response, got = some response → response.isSuccess = false) :
    cache.Gains none later := by
  refine ⟨h.enabled, fun entry mem => (h.held entry mem).imp_right ?_⟩
  rintro ⟨success, same⟩
  cases (failure _ same).symm.trans success

theorem gains_get : cache.Gains none (cache.get key now).2 := by
  rw [Cache.get]
  split
  · exact ⟨rfl, fun _ => .inl⟩
  split
  · exact ⟨rfl, fun _ => .inl⟩
  · exact ⟨rfl, fun entry mem => .inl (List.mem_filter.1 mem).1⟩

/-- What is found in a cache was held under the key. -/
theorem find?_of_get (hit : (cache.get key now).1 = some response) :
    ∃ entry, cache.entries.find? key = some entry ∧ entry.response = response := by
  rw [Cache.get] at hit
  cases found : cache.entries.find? key with
  | none =>
    rw [found] at hit
    cases hit
  | some entry =>
    simp only [found] at hit
    split at hit
    · exact ⟨entry, rfl, Option.some.inj hit⟩
    · cases hit

theorem gains_makeRoom : cache.Gains none (cache.makeRoom now) := by
  rw [Cache.makeRoom]
  split
  · exact .refl
  · exact ⟨rfl, fun entry mem => .inl (List.mem_filter.1 mem).1⟩

/-- Only a success is put into a cache. -/
theorem gains_set : cache.Gains (some response) (cache.set key response now) := by
  rw [Cache.set]
  split
  · rename_i good
    rw [Bool.and_eq_true] at good
    have room : cache.Gains (some response) (cache.makeRoom now) := gains_makeRoom.weaken
    dsimp only
    split
    · refine ⟨room.enabled, fun entry mem => ?_⟩
      rcases List.mem_append.1 mem with old | new
      · exact room.held entry (List.mem_filter.1 old).1
      · rw [List.mem_singleton.1 new]
        exact .inr ⟨good.2, rfl⟩
    · exact room
  · exact .refl

/-- All results that are kept are successes. -/
def HoldsSuccesses (cache : Cache) : Prop :=
  ∀ entry ∈ cache.entries.entries, entry.2.response.isSuccess = true

theorem HoldsSuccesses.gains (h : cache.HoldsSuccesses) (gains : cache.Gains got later) :
    later.HoldsSuccesses := by
  intro entry mem
  rcases gains.held entry mem with old | ⟨success, -⟩
  · exact h entry old
  · exact success

end Cache

namespace Call

/-- A cache that is in use holds successes only. -/
def OnlySuccesses (cache : Option Cache) : Prop :=
  ∀ inUse, cache = some inUse → inUse.HoldsSuccesses

/-- While a call runs, its cache gains nothing but what was got, if it has one. -/
def CacheGains (got : Option Response) (cache later : Option Cache) : Prop :=
  ∀ inUse', later = some inUse' → ∃ inUse, cache = some inUse ∧ inUse.Gains got inUse'

/-- A response is held under the key of a call for what an accessor binds. -/
def HeldFor (c : Call) (a : Accessor) (cache : Option Cache) (response : Response) : Prop :=
  ∃ inUse key entry, cache = some inUse ∧ c.cacheKey a cache = some key ∧
    inUse.entries.find? key = some entry ∧ entry.response = response

variable {c : Call} {a : Accessor} {cache later last : Option Cache} {got : Option Response}
  {response : Response}

theorem onlySuccesses_none : OnlySuccesses none := nofun

theorem OnlySuccesses.gains (h : OnlySuccesses cache) (gains : CacheGains got cache later) :
    OnlySuccesses later := by
  intro inUse' same
  obtain ⟨inUse, present, held⟩ := gains inUse' same
  exact (h inUse present).gains held

theorem CacheGains.refl : CacheGains got cache cache := fun inUse same => ⟨inUse, same, .refl⟩

theorem CacheGains.weaken (h : CacheGains none cache later) : CacheGains got cache later := by
  intro inUse' same
  obtain ⟨inUse, before, gains⟩ := h inUse' same
  exact ⟨inUse, before, gains.weaken⟩

theorem CacheGains.trans (h : CacheGains got cache later) (h' : CacheGains got later last) :
    CacheGains got cache last := by
  intro inUse'' same
  obtain ⟨inUse', present, gains'⟩ := h' inUse'' same
  obtain ⟨inUse, before, gains⟩ := h inUse' present
  exact ⟨inUse, before, gains.trans gains'⟩

theorem CacheGains.none_of_failure (h : CacheGains got cache later)
    (failure : ∀ response, got = some response → response.isSuccess = false) :
    CacheGains none cache later := by
  intro inUse' same
  obtain ⟨inUse, before, gains⟩ := h inUse' same
  exact ⟨inUse, before, gains.none_of_failure failure⟩

theorem cacheGains_of_lookedUp {key? : Option String} {hit : Option Response}
    (looked : LookedUp key? cache hit later) : CacheGains none cache later := by
  cases looked with
  | unused => exact .refl
  | looked _ present now =>
    intro inUse' same
    obtain rfl := Option.some.inj same
    exact ⟨_, present, Cache.gains_get⟩

theorem cacheGains_of_laidUp (laid : LaidUp response cache later) :
    CacheGains (some response) cache later := by
  cases laid with
  | unused => exact .refl
  | laid key now =>
    intro inUse' same
    obtain ⟨before, present, rfl⟩ := Option.map_eq_some_iff.1 same
    exact ⟨before, present, Cache.gains_set⟩

/-- What is found is held under the key. -/
theorem heldFor_of_lookedUp (looked : LookedUp (c.cacheKey a cache) cache (some response) later) :
    c.HeldFor a cache response := by
  generalize hit : some response = found at looked
  cases looked with
  | unused => cases hit
  | looked wanted present now =>
    obtain ⟨entry, held, same⟩ := Cache.find?_of_get hit.symm
    exact ⟨_, _, entry, present, wanted, held, same⟩

/-- What is held after nothing was gained, was held before. -/
theorem HeldFor.of_gains (h : c.HeldFor a later response) (gains : CacheGains none cache later) :
    c.HeldFor a cache response := by
  obtain ⟨inUse', key, entry, rfl, wanted, held, same⟩ := h
  obtain ⟨inUse, rfl, gained⟩ := gains inUse' rfl
  have before := (gained.held _ ((Table.find?_eq_some_iff _).1 held)).resolve_right nofun
  refine ⟨inUse, key, entry, rfl, ?_, (Table.find?_eq_some_iff _).2 before, same⟩
  rw [← wanted, cacheKey, cacheKey, gained.enabled]

theorem HeldFor.isSuccess (h : c.HeldFor a cache response) (answers : OnlySuccesses cache) :
    response.isSuccess = true := by
  obtain ⟨inUse, key, entry, present, -, held, rfl⟩ := h
  exact answers inUse present _ ((Table.find?_eq_some_iff _).1 held)

/-- The resource was not delivered, for a token that may be mended. -/
def Rejected (a : Accessor) (response : Response) : Prop :=
  ∃ failure, response.resourceFailure? a.hasAccessToken = some failure ∧ failure.recoverable = true

/-- A success is no reason to mend a token. -/
theorem not_rejected_of_isSuccess {a : Accessor} {response : Response}
    (success : response.isSuccess = true) : ¬ Rejected a response := by
  rintro ⟨failure, failed, -⟩
  rw [Response.resourceFailure?, if_pos success] at failed
  cases failed

end Call
end DelegatedFetch
