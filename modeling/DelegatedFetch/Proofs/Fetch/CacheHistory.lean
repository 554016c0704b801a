import DelegatedFetch.Fetch.Cache
import DelegatedFetch.Proofs.Table

/-!
# A cache and its history

A cache is got from, set and cleared of what has expired, at times that may go
forward and back. What it holds and what it has counted is accounted for by
these uses: each entry is the response of the latest set of its key that was
stored, each get is a hit or a miss, and each entry that was ever added is held
or was evicted.

A set is stored if the response is a success and there is room for it. A full
cache stores nothing under a key that it holds, either, and whether a key is new
is asked once room was made: an entry that has expired may be evicted and set
again by one use.
-/

namespace DelegatedFetch.Cache

variable {c : Cache} {key name : String} {response : Response} {now : Int} {e : CachedResponse}

/-- What can be asked of a cache. -/
inductive Use where
  | get (key : String)
  | set (key : String) (response : Response)
  | evict

/-- A use, and the time on the steady clock when it is made. -/
structure Event where
  use : Use
  time : Int

def Event.isGet (event : Event) : Bool :=
  match event.use with
  | .get _ => true
  | _ => false

/-- The cache after one use. -/
def after (c : Cache) (event : Event) : Cache :=
  match event.use with
  | .get key => (c.get key event.time).2
  | .set key response => c.set key response event.time
  | .evict => c.evictExpired event.time

/-- The cache after some uses, one after the other. -/
def replay (c : Cache) (history : List Event) : Cache := history.foldl after c

/-- A response that is set is stored: the cache is in use, the response is a success, and there is
room for it, if need be after what has expired was evicted. -/
def Stores (c : Cache) (response : Response) (now : Int) : Prop :=
  c.isEnabled = true ∧ response.isSuccess = true ∧ (c.makeRoom now).entries.size < c.capacity

instance (c : Cache) (response : Response) (now : Int) : Decidable (c.Stores response now) :=
  inferInstanceAs (Decidable (_ ∧ _ ∧ _))

/-- What a use stores under a key, if it does. -/
def storedBy? (c : Cache) (key : String) (event : Event) : Option CachedResponse :=
  match event.use with
  | .set name response =>
    if name = key ∧ c.Stores response event.time then some ⟨response, event.time⟩ else none
  | _ => none

/-- What the latest set of a key that was stored has stored. -/
def latestStored? (c : Cache) (key : String) : List Event → Option CachedResponse
  | [] => none
  | event :: later => ((c.after event).latestStored? key later).or (c.storedBy? key event)

/-- A use stores a response under a key that is not held when it is put there. -/
def addsKey (c : Cache) (event : Event) : Bool :=
  match event.use with
  | .set key response =>
    decide (c.Stores response event.time) && !(c.makeRoom event.time).entries.contains key
  | _ => false

/-- How many uses store a response under a key that is not held. -/
def addedKeys (c : Cache) : List Event → Nat
  | [] => 0
  | event :: later => (c.addsKey event).toNat + (c.after event).addedKeys later

/-- A cache has lost entries at most, and has counted them. -/
structure Thinned (c later : Cache) : Prop where
  ttl : later.ttl = c.ttl
  capacity : later.capacity = c.capacity
  hits : later.hits = c.hits
  misses : later.misses = c.misses
  size_le : later.entries.size ≤ c.entries.size
  counted : later.evictions = c.evictions + UInt64.ofNat (c.entries.size - later.entries.size)
  held : ∀ key e, later.entries.find? key = some e → c.entries.find? key = some e

theorem Thinned.refl (c : Cache) : c.Thinned c :=
  ⟨rfl, rfl, rfl, rfl, Nat.le_refl _, by simp, fun _ _ held => held⟩

theorem thinned_evictExpired (c : Cache) (now : Int) : c.Thinned (c.evictExpired now) := by
  have fewer := c.entries.size_filter_le fun _ e => c.isFresh now e
  exact ⟨rfl, rfl, rfl, rfl, fewer, rfl, fun _ _ => Table.find?_of_filter⟩

theorem thinned_makeRoom (c : Cache) (now : Int) : c.Thinned (c.makeRoom now) := by
  rw [makeRoom]
  split
  · exact .refl c
  · exact c.thinned_evictExpired now

theorem set_of_stores (stores : c.Stores response now) : c.set key response now =
    { c.makeRoom now with entries := (c.makeRoom now).entries.insert key ⟨response, now⟩ } := by
  obtain ⟨enabled, success, room⟩ := stores
  rw [← (c.thinned_makeRoom now).capacity] at room
  simp only [set, enabled, success, Bool.and_self, if_true, room]

/-- A set that is not stored adds nothing. -/
theorem thinned_set (dropped : ¬ c.Stores response now) : c.Thinned (c.set key response now) := by
  rw [set]
  split
  · rename_i good
    rw [Bool.and_eq_true] at good
    have full : ¬ (c.makeRoom now).entries.size < (c.makeRoom now).capacity := by
      intro room
      rw [(c.thinned_makeRoom now).capacity] at room
      exact dropped ⟨good.1, good.2, room⟩
    simp only [full, if_false]
    exact c.thinned_makeRoom now
  · exact .refl c

/-- A use neither looks anything up nor stores anything. -/
inductive Idle (c : Cache) : Event → Prop
  | evict (now : Int) : Idle c ⟨.evict, now⟩
  | dropped {key : String} {response : Response} {now : Int} (dropped : ¬ c.Stores response now) :
      Idle c ⟨.set key response, now⟩

variable {event : Event} {later : Cache}

theorem Idle.isGet (idle : c.Idle event) : event.isGet = false := by
  cases idle with
  | evict => rfl
  | dropped => rfl

theorem Idle.storedBy? (idle : c.Idle event) (key : String) : c.storedBy? key event = none := by
  cases idle with
  | evict => rfl
  | dropped dropped => exact if_neg fun stored => dropped stored.2

theorem Idle.addsKey (idle : c.Idle event) : c.addsKey event = false := by
  cases idle with
  | evict => rfl
  | dropped dropped => simp only [Cache.addsKey, dropped, decide_false, Bool.false_and]

/-- How a cache changes by one use. -/
inductive Changes (c : Cache) : Event → Cache → Prop
  | hit {key : String} {now : Int} {e : CachedResponse} (held : c.entries.find? key = some e)
      (fresh : c.isFresh now e = true) : Changes c ⟨.get key, now⟩ { c with hits := c.hits + 1 }
  | miss {key : String} {now : Int} (absent : c.entries.find? key = none) :
      Changes c ⟨.get key, now⟩ { c with misses := c.misses + 1 }
  | expire {key : String} {now : Int} {e : CachedResponse} (held : c.entries.find? key = some e)
      (stale : c.isFresh now e = false) : Changes c ⟨.get key, now⟩ { c with
        entries := c.entries.erase key, evictions := c.evictions + 1, misses := c.misses + 1 }
  | store {key : String} {response : Response} {now : Int} (stores : c.Stores response now) :
      Changes c ⟨.set key response, now⟩ { c.makeRoom now with
        entries := (c.makeRoom now).entries.insert key ⟨response, now⟩ }
  | thin {event : Event} {later : Cache} (idle : c.Idle event) (thinned : c.Thinned later) :
      Changes c event later

theorem changes_after (c : Cache) (event : Event) : c.Changes event (c.after event) := by
  rcases event with ⟨key | ⟨key, response⟩ | _, now⟩
  · rw [after]
    dsimp only
    rw [Cache.get]
    cases held : c.entries.find? key with
    | none => exact .miss held
    | some e =>
      dsimp only
      split
      · rename_i fresh
        exact .hit held fresh
      · rename_i stale
        exact .expire held (Bool.eq_false_iff.2 stale)
  · rw [after]
    dsimp only
    by_cases stores : c.Stores response now
    · rw [set_of_stores stores]
      exact .store stores
    · exact .thin (.dropped stores) (thinned_set stores)
  · exact .thin (.evict now) (c.thinned_evictExpired now)

theorem Changes.policy (h : c.Changes event later) :
    later.ttl = c.ttl ∧ later.capacity = c.capacity := by
  cases h with
  | hit | miss | expire => exact ⟨rfl, rfl⟩
  | store => exact ⟨(c.thinned_makeRoom _).ttl, (c.thinned_makeRoom _).capacity⟩
  | thin _ thinned => exact ⟨thinned.ttl, thinned.capacity⟩

/-- There is room for what is stored. -/
theorem Changes.size_le (h : c.Changes event later) (bounded : c.entries.size ≤ c.capacity) :
    later.entries.size ≤ c.capacity := by
  cases h with
  | hit | miss => exact bounded
  | @expire key =>
    have erased := c.entries.size_erase key
    dsimp only
    omega
  | @store key response now stores =>
    have inserted := (c.makeRoom now).entries.size_insert key ⟨response, now⟩
    have room := stores.2.2
    dsimp only
    split at inserted <;> omega
  | thin _ thinned => exact Nat.le_trans thinned.size_le bounded

/-- So many gets were counted as hits, and so many as misses. The counters go round. -/
structure Counted (c later : Cache) (hits misses : Nat) : Prop where
  hits : later.hits = c.hits + UInt64.ofNat hits
  misses : later.misses = c.misses + UInt64.ofNat misses

/-- A get is a hit or a miss, and no other use is. -/
theorem Changes.lookups (h : c.Changes event later) :
    ∃ hits misses, hits + misses = event.isGet.toNat ∧ c.Counted later hits misses := by
  cases h with
  | hit => exact ⟨1, 0, rfl, rfl, by simp⟩
  | miss | expire => exact ⟨0, 1, rfl, by simp, rfl⟩
  | store =>
    exact ⟨0, 0, rfl, by simp [(c.thinned_makeRoom _).hits], by simp [(c.thinned_makeRoom _).misses]⟩
  | thin idle thinned =>
    exact ⟨0, 0, by rw [idle.isGet]; rfl, by simp [thinned.hits], by simp [thinned.misses]⟩

/-- An entry is added under a new key, or leaves and is counted. -/
theorem Changes.counted (h : c.Changes event later) : ∃ left,
    later.entries.size + left = (c.addsKey event).toNat + c.entries.size ∧
      later.evictions = c.evictions + UInt64.ofNat left := by
  cases h with
  | hit | miss => exact ⟨0, by simp [addsKey], by simp⟩
  | @expire key now e held =>
    have erased := c.entries.size_erase key
    rw [Table.contains, held, Option.isSome_some, if_pos rfl] at erased
    refine ⟨1, ?_, rfl⟩
    simp only [addsKey, Bool.toNat_false]
    omega
  | @store key response now stores =>
    have inserted := (c.makeRoom now).entries.size_insert key ⟨response, now⟩
    have fewer := (c.thinned_makeRoom now).size_le
    refine ⟨_, ?_, (c.thinned_makeRoom now).counted⟩
    simp only [addsKey, stores, decide_true, Bool.true_and]
    cases known : (c.makeRoom now).entries.contains key with
    | true =>
      simp only [known, if_true, Bool.not_true, Bool.toNat_false] at inserted ⊢
      omega
    | false =>
      simp only [known, Bool.false_eq_true, if_false, Bool.not_false, Bool.toNat_true] at inserted ⊢
      omega
  | thin idle thinned =>
    have fewer := thinned.size_le
    refine ⟨_, ?_, thinned.counted⟩
    rw [idle.addsKey, Bool.toNat_false]
    omega

/-- What is held was stored by the use, or was held before and not replaced. -/
theorem Changes.held (h : c.Changes event later) (held : later.entries.find? key = some e) :
    c.storedBy? key event = some e ∨
      c.storedBy? key event = none ∧ c.entries.find? key = some e := by
  cases h with
  | hit | miss => exact .inr ⟨rfl, held⟩
  | expire =>
    rw [Table.find?_erase] at held
    split at held
    · cases held
    · exact .inr ⟨rfl, held⟩
  | @store name response now stores =>
    rw [Table.find?_insert] at held
    simp only [storedBy?, stores, and_true]
    by_cases same : key = name
    · rw [if_pos same] at held
      rw [if_pos same.symm]
      exact .inl held
    · rw [if_neg same] at held
      rw [if_neg (Ne.symm same)]
      exact .inr ⟨rfl, (c.thinned_makeRoom now).held key e held⟩
  | thin idle thinned => exact .inr ⟨idle.storedBy? key, thinned.held key e held⟩

variable {history : List Event}

theorem policy_replay (c : Cache) (history : List Event) :
    (c.replay history).ttl = c.ttl ∧ (c.replay history).capacity = c.capacity := by
  induction history generalizing c with
  | nil => exact ⟨rfl, rfl⟩
  | cons event later ih =>
    have step := (c.changes_after event).policy
    exact ⟨(ih (c.after event)).1.trans step.1, (ih (c.after event)).2.trans step.2⟩

theorem size_replay_le (history : List Event) (bounded : c.entries.size ≤ c.capacity) :
    (c.replay history).entries.size ≤ c.capacity := by
  induction history generalizing c with
  | nil => exact bounded
  | cons event later ih =>
    have step := c.changes_after event
    have room := step.size_le bounded
    rw [← step.policy.2] at room ⊢
    exact ih room

/-- Every get of a history was counted once. -/
theorem lookups_replay (c : Cache) (history : List Event) : ∃ hits misses,
    hits + misses = history.countP Event.isGet ∧ c.Counted (c.replay history) hits misses := by
  induction history generalizing c with
  | nil => exact ⟨0, 0, rfl, by simp [replay], by simp [replay]⟩
  | cons event later ih =>
    obtain ⟨hit, missed, one, step⟩ := (c.changes_after event).lookups
    obtain ⟨hits, misses, all, rest⟩ := ih (c.after event)
    have gets : (event :: later).countP Event.isGet =
        later.countP Event.isGet + event.isGet.toNat := by
      rw [List.countP_cons]
      cases event.isGet <;> rfl
    refine ⟨hit + hits, missed + misses, by omega, ?_, ?_⟩
    · rw [UInt64.ofNat_add, ← UInt64.add_assoc, ← step.hits]
      exact rest.hits
    · rw [UInt64.ofNat_add, ← UInt64.add_assoc, ← step.misses]
      exact rest.misses

/-- Every entry that was added is held, or was counted when it left. -/
theorem counted_replay (c : Cache) (history : List Event) : ∃ left,
    (c.replay history).entries.size + left = c.addedKeys history + c.entries.size ∧
      (c.replay history).evictions = c.evictions + UInt64.ofNat left := by
  induction history generalizing c with
  | nil => exact ⟨0, (Nat.zero_add _).symm, by simp [replay]⟩
  | cons event later ih =>
    obtain ⟨now, one, step⟩ := (c.changes_after event).counted
    obtain ⟨left, all, rest⟩ := ih (c.after event)
    have sizes : (c.replay (event :: later)).entries.size =
        ((c.after event).replay later).entries.size := rfl
    refine ⟨now + left, ?_, ?_⟩
    · rw [sizes, addedKeys]
      omega
    · rw [UInt64.ofNat_add, ← UInt64.add_assoc, ← step]
      exact rest

/-- What is held was stored by the latest set that was stored, or was held at first and never set. -/
theorem held_replay (c : Cache) (history : List Event)
    (held : (c.replay history).entries.find? key = some e) :
    c.latestStored? key history = some e ∨
      c.latestStored? key history = none ∧ c.entries.find? key = some e := by
  induction history generalizing c with
  | nil => exact .inr ⟨rfl, held⟩
  | cons event later ih =>
    rw [latestStored?]
    rcases ih (c.after event) held with latest | ⟨unset, before⟩
    · rw [latest]
      exact .inl rfl
    · rw [unset, Option.none_or]
      exact (c.changes_after event).held before

/-- What a cache holds that was empty at first, was stored by the latest set that was stored. -/
theorem latestStored?_of_held (empty : c.entries = .empty)
    (held : (c.replay history).entries.find? key = some e) :
    c.latestStored? key history = some e := by
  rcases c.held_replay history held with latest | ⟨-, first⟩
  · exact latest
  · rw [empty, Table.find?_empty] at first
    cases first

/-- Only a success is stored. -/
theorem success_of_latestStored (c : Cache) (history : List Event)
    (latest : c.latestStored? key history = some e) : e.response.isSuccess = true := by
  induction history generalizing c with
  | nil => cases latest
  | cons event later ih =>
    rw [latestStored?, Option.or_eq_some_iff] at latest
    rcases latest with after | ⟨-, now⟩
    · exact ih (c.after event) after
    · rw [storedBy?] at now
      split at now
      · split at now
        · rename_i stored
          rw [← Option.some.inj now]
          exact stored.2.2.1
        · cases now
      · cases now

/-- Nothing is stored in a cache that is not in use. -/
theorem addedKeys_of_disabled (history : List Event) (disabled : c.isEnabled = false) :
    c.addedKeys history = 0 := by
  induction history generalizing c with
  | nil => rfl
  | cons event later ih =>
    have step := (c.changes_after event).policy
    have still : (c.after event).isEnabled = false := by
      rw [← disabled, isEnabled, isEnabled, step.1, step.2]
    have unadded : c.addsKey event = false := by
      rw [addsKey]
      split
      · simp [Stores, disabled]
      · rfl
    rw [addedKeys, unadded, ih still]
    rfl

/-- A get answers with what is held under its key, unless that is too old. -/
theorem get_eq_some_iff : (c.get key now).1 = some response ↔ ∃ e, c.entries.find? key = some e ∧
    (now - e.keptAt).toNat ≤ c.ttl ∧ e.response = response := by
  rw [get]
  cases held : c.entries.find? key with
  | none => exact iff_of_false nofun fun ⟨_, absurd, _⟩ => nomatch absurd
  | some e =>
    dsimp only
    split
    · rename_i fresh
      have young : (now - e.keptAt).toNat ≤ c.ttl := of_decide_eq_true fresh
      constructor
      · intro same
        exact ⟨e, rfl, young, Option.some.inj same⟩
      · rintro ⟨e', same, -, rfl⟩
        rw [Option.some.inj same]
    · rename_i stale
      refine iff_of_false nofun ?_
      rintro ⟨e', same, young, -⟩
      rw [← Option.some.inj same] at young
      exact stale (decide_eq_true young)

/-- What is too old when it is asked for is not given out, and is held no longer. -/
theorem get_of_stale
    (stale : ∀ e, c.entries.find? key = some e → c.ttl < (now - e.keptAt).toNat) :
    (c.get key now).1 = none ∧ (c.get key now).2.entries.find? key = none := by
  rw [get]
  cases held : c.entries.find? key with
  | none => exact ⟨rfl, held⟩
  | some e =>
    have old : c.isFresh now e = false := decide_eq_false (Nat.not_le.2 (stale e held))
    simp only [old]
    exact ⟨rfl, (c.entries.find?_erase key key).trans (if_pos rfl)⟩

/-- What a new cache has to account for after a history. The counters have 64 bits, so the sums are
those of such numbers; and as long as 64 bits hold what is counted, no counter has gone round. -/
structure Accounts (new : Cache) (history : List Event) : Prop where
  bounded : (new.replay history).stats.size ≤ new.capacity
  lookups : (new.replay history).stats.hits + (new.replay history).stats.misses =
    UInt64.ofNat (history.countP Event.isGet)
  allLookups : history.countP Event.isGet < UInt64.size →
    (new.replay history).stats.hits.toNat + (new.replay history).stats.misses.toNat =
      history.countP Event.isGet
  entries : UInt64.ofNat (new.replay history).stats.size + (new.replay history).stats.evictions =
    UInt64.ofNat (new.addedKeys history)
  allEntries : new.addedKeys history < UInt64.size →
    (new.replay history).stats.size + (new.replay history).stats.evictions.toNat =
      new.addedKeys history
  answers : ∀ key now response, ((new.replay history).get key now).1 = some response →
    ∃ e, new.latestStored? key history = some e ∧ e.response = response ∧
      response.isSuccess = true ∧ (now - e.keptAt).toNat ≤ new.ttl
  fresh : ∀ key now e, (new.replay history).entries.find? key = some e →
    (now - e.keptAt).toNat ≤ new.ttl → ((new.replay history).get key now).1 = some e.response
  stale : ∀ key now e, new.latestStored? key history = some e →
    new.ttl < (now - e.keptAt).toNat → ((new.replay history).get key now).1 = none ∧
      ((new.replay history).get key now).2.entries.find? key = none
  unused : new.ttl = 0 ∨ new.capacity = 0 → (new.replay history).stats.size = 0

/-- Whatever a new cache was used for, and however the clock went, it holds no more than it may, has
counted each get once and each entry that was added as held or evicted, and answers with the latest
response that was stored under a key as long as that is not too old, and with nothing after that. -/
theorem replay_accounts (ttl capacity : Nat) (history : List Event) :
    Accounts { ttl, capacity } history := by
  generalize start : ({ ttl, capacity } : Cache) = new
  have empty : new.entries = .empty := by rw [← start]
  have policy := new.policy_replay history
  obtain ⟨hits, misses, gets, counted⟩ := new.lookups_replay history
  have hit : (new.replay history).stats.hits = UInt64.ofNat hits := by
    rw [stats, counted.hits, ← start, UInt64.zero_add]
  have missed : (new.replay history).stats.misses = UInt64.ofNat misses := by
    rw [stats, counted.misses, ← start, UInt64.zero_add]
  obtain ⟨left, added, evictions⟩ := new.counted_replay history
  have evicted : (new.replay history).stats.evictions = UInt64.ofNat left := by
    rw [stats, evictions, ← start, UInt64.zero_add]
  rw [show new.entries.size = 0 by rw [empty]; rfl, Nat.add_zero] at added
  refine ⟨?_, ?_, fun few => ?_, ?_, fun few => ?_, ?_, ?_, ?_, ?_⟩
  · exact size_replay_le history (by rw [empty]; exact Nat.zero_le _)
  · rw [hit, missed, ← UInt64.ofNat_add, gets]
  · rw [hit, missed, UInt64.toNat_ofNat_of_lt' (by omega), UInt64.toNat_ofNat_of_lt' (by omega)]
    exact gets
  · rw [evicted, ← UInt64.ofNat_add]
    exact congrArg UInt64.ofNat added
  · rw [evicted, UInt64.toNat_ofNat_of_lt' (by omega)]
    exact added
  · intro key now response answered
    obtain ⟨e, held, young, rfl⟩ := get_eq_some_iff.1 answered
    have latest := latestStored?_of_held empty held
    rw [policy.1] at young
    exact ⟨e, latest, rfl, new.success_of_latestStored history latest, young⟩
  · intro key now e held young
    rw [← policy.1] at young
    exact get_eq_some_iff.2 ⟨e, held, young, rfl⟩
  · intro key now e latest old
    refine get_of_stale fun e' held => ?_
    obtain rfl := Option.some.inj (latest.symm.trans (latestStored?_of_held empty held))
    rw [policy.1]
    exact old
  · intro zero
    have disabled : new.isEnabled = false := by
      rcases zero with zero | zero <;> simp [isEnabled, zero]
    rw [addedKeys_of_disabled history disabled] at added
    exact (Nat.add_eq_zero_iff.1 added).1

/-- An entry is too old for a get, so it is counted as evicted, and the get as a miss. -/
example : (({ ttl := 1, capacity := 1 } : Cache).replay
    [⟨.set "k" { status := 200 }, 0⟩, ⟨.get "k", 1⟩, ⟨.get "k", 2⟩]).stats = ⟨1, 1, 1, 0⟩ := by
  decide +kernel

end DelegatedFetch.Cache
