import DelegatedFetch.Proofs.Table
import DelegatedFetch.Store.Document

/-!
# What loading a document leaves behind

A document that loads leaves each of its entries registered, counted once, and
all else as it was. A text that is no document changes nothing. An entry that
makes no consumer ends loading where it stands: the entries before it stay
registered, so a load that fails is not undone. Which those are depends on the
order of the entries; that each registration is the old one or one of the
document does not.

An object may repeat a name. The last field of the name counts, but the others
have to be readable too.
-/

namespace DelegatedFetch

namespace Json.Value

variable {α : Type} {read : Value → Option α}

/-- The value of the last field of a name. -/
def last? (name : String) : Value → Option Value
  | .object fields => fields.reverse.lookup name
  | _ => none

/-- An object all of whose fields can be read. -/
def IsTable (read : Value → Option α) (v : Value) : Prop :=
  ∃ fields, v = .object fields ∧ ∀ f ∈ fields, ∃ a, read f.2 = some a

/-- Fields that are all read keep their names and order. -/
theorem forall₂_of_mapM {fields : List (String × Value)} {entries : List (String × α)}
    (all : fields.mapM (fun f => (read f.2).map (f.1, ·)) = some entries) :
    List.Forall₂ (fun f e => e.1 = f.1 ∧ read f.2 = some e.2) fields entries := by
  induction fields generalizing entries with
  | nil =>
    obtain rfl := Option.some.inj all
    exact .nil
  | cons f fields ih =>
    rw [List.mapM_cons] at all
    obtain ⟨e, first, others⟩ := Option.bind_eq_some_iff.1 all
    obtain ⟨rest, tail, joined⟩ := Option.bind_eq_some_iff.1 others
    obtain ⟨a, value, rfl⟩ := Option.map_eq_some_iff.1 first
    obtain rfl := Option.some.inj joined
    exact .cons ⟨rfl, value⟩ (ih tail)

theorem exists_mapM_iff {fields : List (String × Value)} :
    (∃ entries, fields.mapM (fun f => (read f.2).map (f.1, ·)) = some entries) ↔
      ∀ f ∈ fields, ∃ a, read f.2 = some a := by
  induction fields with
  | nil => exact ⟨fun _ => List.forall_mem_nil _, fun _ => ⟨[], rfl⟩⟩
  | cons f fields ih =>
    rw [List.forall_mem_cons, ← ih, List.mapM_cons]
    constructor
    · rintro ⟨entries, all⟩
      obtain ⟨e, first, others⟩ := Option.bind_eq_some_iff.1 all
      obtain ⟨rest, tail, -⟩ := Option.bind_eq_some_iff.1 others
      obtain ⟨a, value, -⟩ := Option.map_eq_some_iff.1 first
      exact ⟨⟨a, value⟩, rest, tail⟩
    · rintro ⟨⟨a, value⟩, rest, tail⟩
      rw [value, tail]
      exact ⟨_, rfl⟩

/-- Where all fields are read, the one that counts is read as well. -/
theorem lookup_of_forall₂ {fields : List (String × Value)} {entries : List (String × α)}
    (each : List.Forall₂ (fun f e => e.1 = f.1 ∧ read f.2 = some e.2) fields entries)
    (name : String) : entries.lookup name = (fields.lookup name).bind read := by
  induction each with
  | nil => rfl
  | @cons field entry _ _ head _ ih =>
    obtain ⟨written, v⟩ := field
    obtain ⟨key, a⟩ := entry
    obtain ⟨rfl, value⟩ : key = written ∧ read v = some a := head
    rw [List.lookup_cons, List.lookup_cons, ih]
    split
    · exact value.symm
    · rfl

/-- An object is read as a table if all its fields are readable. The table has under a name what the
last field of the name is read as. -/
theorem table?_eq_some {v : Value} {t : Table String α} (h : v.table? read = some t) :
    v.IsTable read ∧ ∀ name, t.find? name = (v.last? name).bind read := by
  unfold table? at h
  split at h
  · rename_i fields
    obtain ⟨entries, all, made⟩ := Option.bind_eq_some_iff.1 h
    obtain rfl := Option.some.inj made
    refine ⟨⟨fields, rfl, exists_mapM_iff.1 ⟨entries, all⟩⟩, fun name => ?_⟩
    rw [Table.find?_ofList]
    exact lookup_of_forall₂ (List.forall₂_reverse_iff.2 (forall₂_of_mapM all)) name
  · cases h

theorem exists_table?_iff {v : Value} : (∃ t, v.table? read = some t) ↔ v.IsTable read := by
  constructor
  · rintro ⟨t, h⟩
    exact (table?_eq_some h).1
  · rintro ⟨fields, rfl, readable⟩
    obtain ⟨entries, all⟩ := exists_mapM_iff.2 readable
    exact ⟨Table.ofList entries, Option.bind_eq_some_iff.2 ⟨entries, all, rfl⟩⟩

theorem IsTable.read_last? {v w : Value} {name : String} (table : v.IsTable read)
    (h : v.last? name = some w) : ∃ a, read w = some a := by
  obtain ⟨fields, rfl, readable⟩ := table
  obtain ⟨before, after, split, -⟩ := List.lookup_eq_some_iff.1 h
  refine readable (name, w) (List.mem_reverse.1 ?_)
  rw [split]
  exact List.mem_append_right _ List.mem_cons_self

end Json.Value

namespace Store

/-- A document of consumers: gadgets, and in each of them services with readable entries. -/
def IsDocument (doc : Json.Value) : Prop := doc.IsTable (Json.Value.table? ConsumerEntry.ofJson?)

/-- The entry that a document has for a gadget and a service. Of a repeated name the last field
counts, also where it drops services that an earlier field of its gadget had. -/
def entry? (doc : Json.Value) (key : String × String) : Option ConsumerEntry :=
  ((doc.last? key.1).bind (·.last? key.2)).bind ConsumerEntry.ofJson?

/-- The entries of tables within a table, each under both of its names. -/
def nested (gadgets : Table String (Table String ConsumerEntry)) :
    List ((String × String) × ConsumerEntry) :=
  gadgets.entries.flatMap fun (gadget, services) =>
    services.entries.map fun (service, e) => ((gadget, service), e)

theorem mem_nested_iff {gadgets : Table String (Table String ConsumerEntry)}
    {key : String × String} {e : ConsumerEntry} :
    (key, e) ∈ nested gadgets ↔ (gadgets.find? key.1).bind (·.find? key.2) = some e := by
  rw [nested, List.mem_flatMap, Option.bind_eq_some_iff]
  constructor
  · rintro ⟨⟨gadget, services⟩, outer, inner⟩
    obtain ⟨⟨service, e'⟩, entry, pair⟩ := List.mem_map.1 inner
    obtain ⟨rfl, rfl⟩ := Prod.mk.inj pair
    exact ⟨services, gadgets.find?_eq_some_iff.2 outer, services.find?_eq_some_iff.2 entry⟩
  · rintro ⟨services, outer, inner⟩
    refine ⟨(key.1, services), gadgets.find?_eq_some_iff.1 outer, List.mem_map.2 ?_⟩
    exact ⟨(key.2, e), services.find?_eq_some_iff.1 inner, rfl⟩

theorem nodup_nested (gadgets : Table String (Table String ConsumerEntry)) :
    ((nested gadgets).map (·.1)).Nodup := by
  rw [nested, List.map_flatMap, List.nodup_flatMap]
  constructor
  · rintro ⟨gadget, services⟩ -
    have names := services.nodup.map
      (f := fun service => (gadget, service)) fun _ _ same => (Prod.mk.inj same).2
    rwa [List.map_map] at names ⊢
  · refine (List.pairwise_map.1 gadgets.nodup).imp fun {a b} apart key first second => apart ?_
    obtain ⟨e, one, rfl⟩ := List.mem_map.1 first
    obtain ⟨e', other, same⟩ := List.mem_map.1 second
    obtain ⟨p, -, rfl⟩ := List.mem_map.1 one
    obtain ⟨q, -, rfl⟩ := List.mem_map.1 other
    exact (congrArg Prod.fst same).symm

/-- What is read of a document are its entries, each once. -/
theorem documentEntries_eq_ok {text : String} {entries : List ((String × String) × ConsumerEntry)}
    (h : documentEntries text = .ok entries) : ∃ doc, Json.parse? text = some doc ∧ IsDocument doc ∧
      (entries.map (·.1)).Nodup ∧ ∀ key e, (key, e) ∈ entries ↔ entry? doc key = some e := by
  rw [documentEntries] at h
  split at h
  · rename_i gadgets read
    obtain ⟨doc, parsed, outer⟩ := Option.bind_eq_some_iff.1 read
    obtain rfl := Except.ok.inj h
    obtain ⟨isDocument, names⟩ := Json.Value.table?_eq_some outer
    refine ⟨doc, parsed, isDocument, nodup_nested gadgets, fun key e => ?_⟩
    have inner : (gadgets.find? key.1).bind (·.find? key.2) = entry? doc key := by
      rw [names, entry?]
      cases last : doc.last? key.1 with
      | none => rfl
      | some v =>
        -- the field that counts is readable as all others are
        obtain ⟨services, readable⟩ := isDocument.read_last? last
        rw [Option.bind_some, Option.bind_some, readable, Option.bind_some]
        exact (Json.Value.table?_eq_some readable).2 key.2
    rw [← inner]
    exact mem_nested_iff
  · cases h

/-- Nothing is read of a text that is no document. -/
theorem documentEntries_eq_error {text : String} {failure : Failure}
    (h : documentEntries text = .error failure) :
    failure.kind = .json ∧ ∀ doc, Json.parse? text = some doc → ¬ IsDocument doc := by
  rw [documentEntries] at h
  split at h
  · cases h
  · rename_i unread
    obtain rfl := Except.error.inj h
    refine ⟨rfl, fun doc parsed isDocument => ?_⟩
    obtain ⟨gadgets, read⟩ := Json.Value.exists_table?_iff.2 isDocument
    rw [parsed, Option.bind_some, read] at unread
    cases unread

/-- An entry makes no consumer only if it is for a private key and its secret is none. -/
theorem toConsumer_eq_error_iff {e : ConsumerEntry} {env : Environment}
    {cause : KeyDocument.Error} : e.toConsumer env = .error cause ↔
      e.keyType = .rsaPrivate ∧ KeyDocument.ofText (env.expand e.secret) = .error cause := by
  rw [ConsumerEntry.toConsumer]
  cases type : e.keyType with
  | hmacSymmetric =>
    constructor
    · rintro ⟨⟩
    · rintro ⟨⟨⟩, -⟩
  | rsaPrivate =>
    rw [ConsumerSecret.ofText]
    cases KeyDocument.ofText (env.expand e.secret) with
    | error refused =>
      constructor
      · intro h
        obtain rfl : refused = cause := Except.error.inj h
        exact ⟨rfl, rfl⟩
      · rintro ⟨-, ⟨⟩⟩
        rfl
    | ok key =>
      constructor
      · rintro ⟨⟩
      · rintro ⟨-, ⟨⟩⟩

/-- The entries of a list are registered and all else is as it was. -/
structure Registers (env : Environment) (entries : List ((String × String) × ConsumerEntry))
    (s loaded : Store) : Prop where
  tokens : loaded.tokens = s.tokens
  defaultKey : loaded.defaultKey = s.defaultKey
  listed : ∀ key e, (key, e) ∈ entries →
    ∃ c, e.toConsumer env = .ok c ∧ loaded.consumers.find? key = some c
  unlisted : ∀ key, key ∉ entries.map (·.1) →
    loaded.consumers.find? key = s.consumers.find? key

theorem registers_nil (env : Environment) (s : Store) : Registers env [] s s :=
  ⟨rfl, rfl, fun _ _ mem => absurd mem List.not_mem_nil, fun _ _ => rfl⟩

theorem Registers.cons {env : Environment} {done : List ((String × String) × ConsumerEntry)}
    {s loaded : Store} {key : String × String} {e : ConsumerEntry} {c : Consumer}
    (made : e.toConsumer env = .ok c) (new : key ∉ done.map (·.1))
    (rest : Registers env done (s.setConsumer key.1 key.2 c) loaded) :
    Registers env ((key, e) :: done) s loaded := by
  have set (key' : String × String) : (s.setConsumer key.1 key.2 c).consumers.find? key' =
      if key' = key then some c else s.consumers.find? key' := s.consumers.find?_insert key key' c
  refine ⟨rest.tokens, rest.defaultKey, fun key' e' mem => ?_, fun key' absent => ?_⟩
  · rcases List.mem_cons.1 mem with same | later
    · obtain ⟨rfl, rfl⟩ := Prod.mk.inj same
      refine ⟨c, made, ?_⟩
      rw [rest.unlisted key' new, set, if_pos rfl]
    · exact rest.listed key' e' later
  · rw [List.map_cons, List.mem_cons, not_or] at absent
    rw [rest.unlisted key' absent.2, set, if_neg absent.1]

/-- Entries are registered in order, up to the first that makes no consumer. -/
theorem register_run (env : Environment) (entries : List ((String × String) × ConsumerEntry))
    (once : (entries.map (·.1)).Nodup) (s : Store) :
    ∃ done rest loaded, entries = done ++ rest ∧ Registers env done s loaded ∧
      (rest = [] ∧ s.register env entries = (.ok (), loaded) ∨
        ∃ key e cause later, rest = (key, e) :: later ∧ e.toConsumer env = .error cause ∧
          s.register env entries = (.error (.consumer key.1 key.2 cause), loaded)) := by
  induction entries generalizing s with
  | nil => exact ⟨[], [], s, rfl, registers_nil env s, .inl ⟨rfl, rfl⟩⟩
  | cons entry entries ih =>
    obtain ⟨⟨gadget, service⟩, e⟩ := entry
    rw [List.map_cons, List.nodup_cons] at once
    cases made : e.toConsumer env with
    | error cause =>
      refine ⟨[], _, s, rfl, registers_nil env s, .inr ⟨_, e, cause, entries, rfl, made, ?_⟩⟩
      rw [register, made]
    | ok c =>
      obtain ⟨done, rest, loaded, split, registered, ended⟩ :=
        ih once.2 (s.setConsumer gadget service c)
      have new : (gadget, service) ∉ done.map (·.1) := by
        intro mem
        refine once.1 ?_
        rw [split, List.map_append]
        exact List.mem_append_left _ mem
      have step : s.register env (((gadget, service), e) :: entries) =
          (s.setConsumer gadget service c).register env entries := by
        rw [register, made]
      refine ⟨((gadget, service), e) :: done, rest, loaded, ?_, registered.cons made new, ?_⟩
      · rw [split, List.cons_append]
      · rwa [step]

/-- A store after a document with `n` entries was loaded. -/
structure Filled (env : Environment) (doc : Json.Value) (n : Nat) (s loaded : Store) : Prop where
  tokens : loaded.tokens = s.tokens
  defaultKey : loaded.defaultKey = s.defaultKey
  count : ∃ keys : List (String × String), keys.Nodup ∧ keys.length = n ∧
    ∀ key, key ∈ keys ↔ ∃ e, entry? doc key = some e
  registered : ∀ key e, entry? doc key = some e →
    ∃ c, e.toConsumer env = .ok c ∧ loaded.consumers.find? key = some c
  kept : ∀ key, entry? doc key = none → loaded.consumers.find? key = s.consumers.find? key

/-- A store after loading a document stopped at an entry whose private key is none. -/
structure Stopped (env : Environment) (doc : Json.Value) (key : String × String)
    (cause : KeyDocument.Error) (s loaded : Store) : Prop where
  tokens : loaded.tokens = s.tokens
  defaultKey : loaded.defaultKey = s.defaultKey
  stop : ∃ e, entry? doc key = some e ∧ e.keyType = .rsaPrivate ∧
    KeyDocument.ofText (env.expand e.secret) = .error cause
  each : ∀ key', loaded.consumers.find? key' = s.consumers.find? key' ∨
    ∃ e c, entry? doc key' = some e ∧ e.toConsumer env = .ok c ∧
      loaded.consumers.find? key' = some c

/-- Loading a document ends with all of its entries registered, or stops at one of them. -/
def Ends (env : Environment) (doc : Json.Value) (s : Store) : Except Failure Nat × Store → Prop
  | (.ok n, loaded) => Filled env doc n s loaded
  | (.error failure, loaded) =>
    ∃ key cause, failure = .consumer key.1 key.2 cause ∧ Stopped env doc key cause s loaded

/-- Entries are registered in an order of theirs, and their number is told. -/
def loadOrder (s : Store) (env : Environment) (order : List ((String × String) × ConsumerEntry)) :
    Except Failure Nat × Store :=
  ((s.register env order).1.map fun _ => order.length, (s.register env order).2)

variable {env : Environment} {doc : Json.Value} {s loaded : Store}
  {entries : List ((String × String) × ConsumerEntry)}

theorem Registers.filled (once : (entries.map (·.1)).Nodup)
    (given : ∀ key e, (key, e) ∈ entries ↔ entry? doc key = some e)
    (all : Registers env entries s loaded) : Filled env doc entries.length s loaded := by
  have names (key : String × String) : key ∈ entries.map (·.1) ↔ ∃ e, entry? doc key = some e := by
    rw [List.mem_map]
    constructor
    · rintro ⟨⟨key, e⟩, mem, rfl⟩
      exact ⟨e, (given key e).1 mem⟩
    · rintro ⟨e, entry⟩
      exact ⟨(key, e), (given key e).2 entry, rfl⟩
  refine ⟨all.tokens, all.defaultKey, ⟨entries.map (·.1), once, List.length_map _, names⟩,
    fun key e entry => all.listed key e ((given key e).2 entry), fun key absent => ?_⟩
  refine all.unlisted key fun mem => ?_
  obtain ⟨e, entry⟩ := (names key).1 mem
  rw [absent] at entry
  cases entry

theorem Registers.stopped {done later : List ((String × String) × ConsumerEntry)}
    {key : String × String} {e : ConsumerEntry} {cause : KeyDocument.Error}
    (given : ∀ key' e', (key', e') ∈ done ++ (key, e) :: later → entry? doc key' = some e')
    (bad : e.toConsumer env = .error cause) (before : Registers env done s loaded) :
    Stopped env doc key cause s loaded := by
  have entry := given key e (List.mem_append_right _ List.mem_cons_self)
  have stop := toConsumer_eq_error_iff.1 bad
  refine ⟨before.tokens, before.defaultKey, ⟨e, entry, stop⟩, fun key' => ?_⟩
  by_cases listed : key' ∈ done.map (·.1)
  · obtain ⟨⟨key', e'⟩, mem, rfl⟩ := List.mem_map.1 listed
    obtain ⟨c, made, found⟩ := before.listed key' e' mem
    exact .inr ⟨e', c, given key' e' (List.mem_append_left _ mem), made, found⟩
  · exact .inl (before.unlisted key' listed)

theorem ends_loadOrder (s : Store) (once : (entries.map (·.1)).Nodup)
    (given : ∀ key e, (key, e) ∈ entries ↔ entry? doc key = some e) :
    Ends env doc s (s.loadOrder env entries) := by
  obtain ⟨done, rest, loaded, split, before, ended⟩ := register_run env entries once s
  rcases ended with ⟨rfl, result⟩ | ⟨key, e, cause, later, rfl, bad, result⟩
  · rw [List.append_nil] at split
    rw [← split] at before
    rw [loadOrder, result]
    exact before.filled once given
  · rw [split] at given
    rw [loadOrder, result]
    exact ⟨key, cause, rfl, before.stopped (fun key' e' => (given key' e').1) bad⟩

/-- A text that is no document leaves a store as it is. A document whose entries all make consumers
is loaded: their number is told, each is registered, and all else is as it was. Else an entry is
told that makes none, and each registration is the old one or that of an entry. So it is in any
order of the entries. -/
theorem load_fills_or_stops (s : Store) (env : Environment) (text : String) :
    (∃ failure, s.load env text = (.error failure, s) ∧ failure.kind = .json ∧
      ∀ doc, Json.parse? text = some doc → ¬ IsDocument doc) ∨
    ∃ doc entries, Json.parse? text = some doc ∧ IsDocument doc ∧
      documentEntries text = .ok entries ∧ Ends env doc s (s.load env text) ∧
      ∀ order, order.Perm entries → Ends env doc s (s.loadOrder env order) := by
  cases read : documentEntries text with
  | error failure =>
    obtain ⟨kind, unread⟩ := documentEntries_eq_error read
    refine .inl ⟨failure, ?_, kind, unread⟩
    rw [load, read]
  | ok entries =>
    obtain ⟨doc, parsed, isDocument, once, given⟩ := documentEntries_eq_ok read
    have inOrder : s.load env text = s.loadOrder env entries := by
      rw [load, read]
      rfl
    refine .inr ⟨doc, entries, parsed, isDocument, rfl, ?_, fun order perm => ?_⟩
    · rw [inOrder]
      exact ends_loadOrder s once given
    · refine ends_loadOrder s ((perm.map _).nodup_iff.2 once) fun key e => ?_
      rw [perm.mem_iff]
      exact given key e

/-- A good entry before a bad one is registered, though the document is refused. -/
theorem keeps_entry_before_bad :
    let text := "\x7b\"page\": \x7b" ++
      "\"good\": \x7b\"consumer_key\": \"k\", \"consumer_secret\": \"s\"\x7d, " ++
      "\"bad\": \x7b\"consumer_key\": \"k\", \"consumer_secret\": \"zz\", " ++
        "\"key_type\": \"RSA_PRIVATE\"\x7d\x7d\x7d"
    (({} : Store).load .empty text).1 = .error (.consumer "page" "bad" .neitherForm) ∧
      (({} : Store).load .empty text).2.consumers.find? ("page", "good") =
        some ⟨"k", .hmac "s", none, none⟩ ∧
      ({} : Store).consumers.find? ("page", "good") = none := by
  decide +kernel

end Store
end DelegatedFetch
