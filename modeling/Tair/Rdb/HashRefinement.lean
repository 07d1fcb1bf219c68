/-
The commands on hashes give the replies of a finite map, as long as they misread no field. A field
that is an integer in a table is misread by every command that looks it up.
-/

import Tair.Rdb.SoundHash

namespace Tair.Rdb

open Tair.Library

variable {σ : Type}

/-! ### When a request misreads nothing -/

def hashOf (slot : Option (Slot σ)) : RedisHash :=
  (slot.bind fun slot => slot.entry.value.asHash).getD (.zipmap [])

namespace HashRequest

/-- Requests that check the version. A deletion reads no time stamp, so it is not among them. -/
def writes : HashRequest → Bool
  | .hset .. => true
  | .hsetnx .. => true
  | .hmset .. => true
  | .hincrby .. => true
  | _ => false

/-- Requests that may leave an empty hash behind: they make the key before they look at the
limit. -/
def creates : HashRequest → Bool
  | .hset .. => true
  | .hmset .. => true
  | .hincrby .. => true
  | _ => false

/-- The request reads no integer as a string. A full hash takes the pairs of `hmset` for those
of a table. -/
def reads (settings : Settings) (hash : RedisHash) : HashRequest → Bool
  | .hset field value => !(hash.tryConversion settings [field, value]).misreads field
  | .hsetnx field value => !(hash.tryConversion settings [field, value]).misreads field
  | .hmset pairs =>
    let hash := hash.tryConversion settings (pairTexts (plainPairs pairs))
    if fitsLimit (hash.length + 1) settings.hashMaxSize then
      RedisHash.safePairs settings hash.isTable hash.entries pairs
    else
      let lead := pairs.takeWhile fun pair =>
        (Keyed.find Prod.fst hash.entries pair.1).isSome
      pairs.isEmpty || (hash.isTable && lead.all fun pair => (representedLong pair.1).isNone)
  | .hincrby field _ => !hash.misreads field
  | .hdel _ => true
  | .hget field => !hash.misreads field
  | .hexists field => !hash.misreads field
  | .hlen => true

def safe (settings : Settings) (client : Client) (slot : Option (Slot σ))
    (request : HashRequest) : Bool :=
  (request.writes && (client.nextVersion (slot.map fun slot => slot.entry.version)).isNone) ||
    ((slot.isSome || !request.creates || fitsLimit 1 settings.hashMaxSize) &&
      request.reads settings (hashOf slot))

end HashRequest

open HashRequest

def RedisDb.safely [LinearOrder σ] (server : Server σ) (key : Bytes) :
    RedisDb σ → List TimedRequest → Bool
  | _, [] => true
  | db, timed :: later =>
    timed.request.safe server.settings timed.client (db.live timed.now key) &&
      match db.run timed.now key (timed.request.command.action server timed.client) with
      | .ok ran => RedisDb.safely server key ran.1 later
      | .error _ => true

/-! ### Representation -/

/-- A key represents a map: it has a hash that holds the map, the version and the time to
expire. -/
inductive Represents (clock : UInt32) : Option (Slot σ) → Option MapSlot → Prop where
  | absent : Represents clock none none
  | present {hash : RedisHash} {map : FieldMap} {version : UInt16} {logiclock : UInt32}
      {expire : Option Int} (holds : hash.Holds map) (young : ¬ logiclock < clock) :
      Represents clock (some { entry := { value := .hash hash, version, logiclock }, expire })
        (some { map, version, expire })

section Represents

variable {clock : UInt32} {slot : Option (Slot σ)} {spec : Option MapSlot}

theorem Represents.holds (shows : Represents clock slot spec) :
    (hashOf slot).Holds (mapOf spec) := by
  cases shows with
  | absent => exact RedisHash.holds_empty
  | present holds _ => exact holds

theorem Represents.live (shows : Represents clock slot spec) (now : Int) :
    Represents clock (slot.filter fun slot => !slot.dead clock now)
      (spec.filter fun slot => !slot.past now) := by
  cases shows with
  | absent => exact .absent
  | @present hash map version logiclock expire holds young =>
    have same : Slot.dead clock now
        { entry := { value := (.hash hash : Robj σ), version, logiclock }, expire } =
          MapSlot.past now { map, version, expire } := by
      unfold Slot.dead MapSlot.past
      simp [young]
    rw [Option.filter_some, Option.filter_some, same]
    split_ifs
    · exact .present holds young
    · exact .absent

theorem Represents.store (shows : Represents clock slot spec) {hash : RedisHash}
    {map : FieldMap} (holds : hash.Holds map) (version : UInt16) (client : Client) :
    Represents clock ((Change.store (.hash hash) version client.expireOrNot).apply clock slot)
      (storeMap client spec map version) := by
  cases shows with
  | absent => exact .present holds (UInt32.lt_irrefl clock)
  | present _ young => exact .present holds young

def storedVersion (client : Client) (slot : Option (Slot σ)) : UInt16 :=
  slot.elim client.firstVersion fun slot => slot.entry.version

theorem Represents.back (shows : Represents clock slot spec) (there : slot.isSome = true)
    {hash : RedisHash} (holds : hash.Holds (mapOf spec)) (client : Client) :
    Represents clock
      ((Change.store (.hash hash) (storedVersion client slot) .keep).apply clock slot)
      spec := by
  cases shows with
  | absent => cases there
  | present _ young => exact .present holds young

end Represents

/-! ### Steps -/

/-- A command answers as the map does, and leaves a key that represents the map after it. -/
def Refines (clock : UInt32) (slot : Option (Slot σ)) (result : Except Fault (Outcome σ))
    (expected : Option MapSlot × MapReply) : Prop :=
  ∃ outcome, result = .ok outcome ∧ outcome.mapReply = .ok expected.2 ∧
    Represents clock (outcome.change.apply clock slot) expected.1

section Steps

variable {clock : UInt32} {slot : Option (Slot σ)} {spec : Option MapSlot}
  {client : Client} {settings : Settings}

section

variable (shows : Represents clock slot spec)

include shows

theorem refines_keep (code : RedisCode) (version : UInt16) :
    Refines clock slot (.ok (.refuse code version)) (spec, { code, answer := .nothing }) :=
  ⟨_, rfl, rfl, shows⟩

theorem Represents.write {act : RedisHash → UInt16 → UInt16 → Except Fault (Outcome σ)}
    {expected : UInt16 → Option MapSlot × MapReply} (acts : ∀ version,
      client.nextVersion (slot.map fun slot => slot.entry.version) = some version →
      Refines clock slot (act (hashOf slot) (storedVersion client slot) version)
        (expected version)) :
    Refines clock slot (lookupWriteOrCreate client act (slot.map Slot.entry))
      (writeMap client spec expected) := by
  cases shows with
  | absent => exact acts _ rfl
  | @present hash map version logiclock expire holds young =>
    change Refines clock _ (versioned client
      { value := .hash hash, version, logiclock } fun next => act hash version next) _
    unfold versioned writeMap
    cases accepted : client.nextVersion (some version) with
    | none =>
      dsimp only [Option.map_some]
      rw [accepted]
      exact refines_keep (.present holds young) _ _
    | some next =>
      dsimp only [Option.map_some]
      rw [accepted]
      exact acts next accepted

theorem Represents.there (room : slot.isSome = true ∨ fitsLimit 1 settings.hashMaxSize = true)
    (full : roomFor settings (mapOf spec) = false) : slot.isSome = true := by
  rcases room with there | room
  · exact there
  · cases shows with
    | absent =>
      change fitsLimit 1 settings.hashMaxSize = false at full
      rw [room] at full
      cases full
    | present _ _ => rfl

theorem Represents.there_of_found {field value : Bytes}
    (found : (mapOf spec).lookup field = some value) : slot.isSome = true := by
  cases shows with
  | absent => cases found
  | present _ _ => rfl

omit shows in
theorem HashRequest.safe_accepted {request : HashRequest} {version : UInt16}
    (safe : request.safe settings client slot = true)
    (accepted : client.nextVersion (slot.map fun slot => slot.entry.version) = some version) :
    (request.creates = true → slot.isSome = true ∨ fitsLimit 1 settings.hashMaxSize = true) ∧
      request.reads settings (hashOf slot) = true := by
  unfold HashRequest.safe at safe
  rw [accepted, Option.isNone_some, Bool.and_false, Bool.false_or, Bool.and_eq_true] at safe
  refine ⟨fun creates => ?_, safe.2⟩
  rw [creates, Bool.not_true, Bool.or_false, Bool.or_eq_true] at safe
  exact safe.1

theorem hset_refines {field value : Bytes}
    (safe : (HashRequest.hset field value).safe settings client slot = true) :
    Refines clock slot
      (hsetCommand settings client (plain field) value (slot.map Slot.entry))
      ((HashRequest.hset field value).step settings client spec) := by
  refine shows.write fun version accepted => ?_
  obtain ⟨room, reads⟩ := safe_accepted safe accepted
  have unread := Bool.not_eq_true' _ |>.mp reads
  have holds := shows.holds.tryConversion settings [field, value]
  dsimp only
  change Refines clock slot (((hashOf slot).tryConversion settings [field, value]).set settings
    (plain field)
      (((hashOf slot).tryConversion settings [field, value]).encodeValue value) >>= _) _
  generalize (hashOf slot).tryConversion settings [field, value] = hash at unread holds ⊢
  obtain ⟨after, set, afterHolds, entries, _⟩ :=
    holds.set settings (RedisHash.encoded_encodeValue hash value) unread
  rw [RedisHash.decoded_encodeValue] at afterHolds
  rw [set]
  change Refines clock slot (if ((mapOf spec).lookup field).isSome = false ∧
    fitsLimit after.length settings.hashMaxSize = false then _ else _) (setField ..)
  have condition : (((mapOf spec).lookup field).isSome = false ∧
      fitsLimit after.length settings.hashMaxSize = false) ↔
        (((mapOf spec).lookup field).isNone = true ∧
          roomFor settings (mapOf spec) = false) := by
    rw [Option.isSome_eq_false_iff]
    refine and_congr_right fun absent => ?_
    rw [afterHolds.length, Keyed.card_insert_new (Option.isNone_iff_eq_none.mp absent)]
    rfl
  unfold setField
  by_cases refused : ((mapOf spec).lookup field).isNone = true ∧
      roomFor settings (mapOf spec) = false
  · rw [if_pos (condition.mpr refused), if_pos refused]
    have restored := (afterHolds.delete field).1
    rw [Keyed.erase_insert_new (Option.isNone_iff_eq_none.mp refused.1)] at restored
    exact ⟨_, rfl, rfl, shows.back (shows.there (room rfl) refused.2) restored client⟩
  · rw [if_neg (condition.not.mpr refused), if_neg refused]
    exact ⟨_, rfl, rfl, shows.store afterHolds version client⟩

theorem hsetnx_refines {field value : Bytes}
    (safe : (HashRequest.hsetnx field value).safe settings client slot = true) :
    Refines clock slot
      (hsetnxCommand settings client (plain field) value (slot.map Slot.entry))
      ((HashRequest.hsetnx field value).step settings client spec) := by
  refine shows.write fun version accepted => ?_
  have unread := Bool.not_eq_true' _ |>.mp (safe_accepted safe accepted).2
  have holds := shows.holds.tryConversion settings [field, value]
  dsimp only
  change Refines clock slot (((hashOf slot).tryConversion settings [field, value]).get
    (plain field) >>= _) _
  generalize (hashOf slot).tryConversion settings [field, value] = hash at unread holds ⊢
  obtain ⟨found, got, same, _⟩ := holds.get unread
  rw [got, ← same]
  cases found with
  | some old =>
    exact ⟨_, rfl, rfl, shows.back (shows.there_of_found same.symm) holds client⟩
  | none =>
    obtain ⟨after, set, afterHolds, _, _⟩ :=
      holds.set settings (RedisHash.encoded_encodeValue hash value) unread
    rw [RedisHash.decoded_encodeValue] at afterHolds
    change Refines clock slot (hash.set settings (plain field)
      (hash.encodeValue value) >>= _) _
    rw [set]
    exact ⟨_, rfl, rfl, shows.store afterHolds version client⟩

omit shows in
theorem setLead {hash : RedisHash} {map : FieldMap} (holds : hash.Holds map)
    {pairs : List (Bytes × Bytes)} (safe : (pairs.isEmpty || (hash.isTable &&
      (pairs.takeWhile fun pair => (Keyed.find Prod.fst hash.entries pair.1).isSome).all
        fun pair => (representedLong pair.1).isNone)) = true) :
    ∃ after left, setPresent settings (plainPairs pairs) hash = .ok (after, left) ∧
      (pairs.takeWhile fun pair => (map.lookup pair.1).isSome).length + left = pairs.length ∧
      after.Holds (insertAll map (pairs.takeWhile fun pair => (map.lookup pair.1).isSome)) := by
  rcases Bool.or_eq_true _ _ |>.mp safe with empty | table
  · rw [List.isEmpty_iff.mp empty]
    exact ⟨hash, 0, rfl, rfl, holds⟩
  · obtain ⟨table, texts⟩ := Bool.and_eq_true _ _ |>.mp table
    have same : (fun pair : Bytes × Bytes => (Keyed.find Prod.fst hash.entries pair.1).isSome) =
        fun pair => (map.lookup pair.1).isSome :=
      funext fun pair => (holds.models.isSome_lookup pair.1).symm
    rw [same] at texts
    exact holds.setPresent settings table (fun _ => rfl) fun pair member =>
      Option.isNone_iff_eq_none.mp (List.all_eq_true.mp texts pair member)

theorem hmset_refines {pairs : List (Bytes × Bytes)}
    (safe : (HashRequest.hmset pairs).safe settings client slot = true) :
    Refines clock slot
      (hmsetCommand settings client (plainPairs pairs) (slot.map Slot.entry))
      ((HashRequest.hmset pairs).step settings client spec) := by
  refine shows.write fun version accepted => ?_
  obtain ⟨room, reads⟩ := safe_accepted safe accepted
  have holds := shows.holds.tryConversion settings
    (pairTexts (plainPairs pairs))
  unfold HashRequest.reads at reads
  dsimp only at reads ⊢
  generalize (hashOf slot).tryConversion settings
    (pairTexts (plainPairs pairs)) = hash at reads holds ⊢
  have fits : fitsLimit (hash.length + 1) settings.hashMaxSize =
      roomFor settings (mapOf spec) := by
    rw [holds.length]
    rfl
  have count : (plainPairs pairs).length = pairs.length := List.length_map _
  rw [fits] at reads ⊢
  unfold setFields
  dsimp only
  cases full : roomFor settings (mapOf spec) with
  | true =>
    rw [full, if_pos rfl] at reads
    obtain ⟨after, set, afterHolds⟩ := holds.setPairs settings reads
    rw [if_pos rfl, if_pos rfl, set]
    refine ⟨_, rfl, ?_, shows.store afterHolds version client⟩
    rw [← count]
    rfl
  | false =>
    rw [full, if_neg Bool.false_ne_true] at reads
    rw [if_neg Bool.false_ne_true, if_neg Bool.false_ne_true]
    have there := shows.there (room rfl) full
    obtain ⟨after, left, set, total, afterHolds⟩ := setLead holds reads
    rw [set]
    generalize pairs.takeWhile (fun pair => ((mapOf spec).lookup pair.1).isSome) = lead
      at total afterHolds ⊢
    have taken : pairs.length - left = lead.length := by omega
    have limited : 0 < left ↔ lead.length < pairs.length := by omega
    have none : left = pairs.length ↔ lead = [] := by
      rw [← List.length_eq_zero_iff]
      omega
    change Refines clock slot (.ok
      { change :=
          if left = (plainPairs pairs).length then
            .store (.hash after) (storedVersion client slot) .keep
          else .store (.hash after) version client.expireOrNot
        code := if 0 < left then .errDataLenLimited else .ok
        answer := .number ((plainPairs pairs).length - left : Nat)
        version := _ }) _
    simp only [count, taken, limited, none]
    refine ⟨_, rfl, rfl, ?_⟩
    by_cases empty : lead = []
    · rw [if_pos empty, if_pos empty]
      rw [empty] at afterHolds
      exact shows.back there afterHolds client
    · rw [if_neg empty, if_neg empty]
      exact shows.store afterHolds version client

omit shows in
theorem encoded_addInt32 (value incr : Int) : (StringObject.int (addInt32 value incr)).Encoded := by
  have low := @Int.le_bmod (value + incr) (2 ^ 32) (by norm_num)
  have high := @Int.bmod_lt (value + incr) (2 ^ 32) (by norm_num)
  change -2 ^ 63 ≤ (value + incr).bmod (2 ^ 32) ∧ (value + incr).bmod (2 ^ 32) < 2 ^ 63
  omega

theorem hincrby_refines {field : Bytes} {incr : Int}
    (safe : (HashRequest.hincrby field incr).safe settings client slot = true) :
    Refines clock slot
      (hincrbyCommand settings client (plain field) incr (slot.map Slot.entry))
      ((HashRequest.hincrby field incr).step settings client spec) := by
  refine shows.write fun version accepted => ?_
  obtain ⟨room, reads⟩ := safe_accepted safe accepted
  have unread := Bool.not_eq_true' _ |>.mp reads
  have holds := shows.holds
  obtain ⟨found, got, same, numbers⟩ := holds.get unread
  have stored (value : Int) (bounds : (StringObject.int value).Encoded) :
      Refines clock slot
        (storeIncrement settings client (plain field) value version
          (foundVersion (slot.map Slot.entry)) (hashOf slot))
        (storeMap client spec ((mapOf spec).insert field (ll2string value)) version,
          { code := .ok, answer := .number value }) := by
    obtain ⟨after, set, afterHolds, _, _⟩ := holds.set settings (fun _ => bounds) unread
    unfold storeIncrement
    rw [set]
    exact ⟨_, rfl, rfl, shows.store afterHolds version client⟩
  change Refines clock slot ((hashOf slot).get (plain field) >>= _)
    (incrementField settings client spec field incr version)
  unfold incrementField
  dsimp only
  rw [got, ← same]
  cases found with
  | none =>
    change Refines clock slot
      (if fitsLimit ((hashOf slot).length + 1) settings.hashMaxSize = true then
        storeIncrement settings client (plain field) (addInt32 0 incr) version
          (foundVersion (slot.map Slot.entry)) (hashOf slot)
      else _)
      (if roomFor settings (mapOf spec) = true then _ else _)
    rw [holds.length]
    change Refines clock slot (if roomFor settings (mapOf spec) = true then _ else _) _
    cases full : roomFor settings (mapOf spec) with
    | true => exact stored _ (encoded_addInt32 0 incr)
    | false =>
      exact ⟨_, rfl, rfl, shows.back (shows.there (room rfl) full) holds client⟩
  | some current =>
    have there := shows.there_of_found same.symm
    dsimp only [Option.map_some, bind, Except.bind]
    rw [← numbers current rfl]
    cases getLongLongFromObject current with
    | none => exact ⟨_, rfl, rfl, shows.back there holds client⟩
    | some value => exact stored _ (encoded_addInt32 value incr)

theorem hdel_refines (field : Bytes) :
    Refines clock slot (hdelCommand client field (slot.map Slot.entry))
      ((HashRequest.hdel field).step settings client spec) := by
  cases shows with
  | absent => exact refines_keep .absent _ _
  | @present hash map version logiclock expire holds young =>
    obtain ⟨leftHolds, deleted⟩ := holds.delete field
    change Refines clock _ (versioned client
      { value := .hash hash, version, logiclock } fun next => _)
      (writeMap client _ (deleteField client { map, version, expire } field))
    unfold versioned writeMap
    dsimp only [Option.map_some]
    cases client.nextVersion (some version) with
    | none => exact refines_keep (.present holds young) _ _
    | some next =>
      unfold deleteField
      dsimp only
      rw [deleted, leftHolds.length]
      cases known : (map.lookup field).isSome with
      | false => exact refines_keep (.present holds young) _ _
      | true =>
        rw [if_pos rfl, if_pos rfl]
        refine ⟨_, rfl, rfl, ?_⟩
        unfold storeUnless
        by_cases empty : (map.erase field).keys.card = 0
        · simp only [empty]
          exact .absent
        · simp only [empty]
          exact (Represents.present holds young).store leftHolds next client

omit shows in
theorem RedisHash.read_node (hash : RedisHash) (value : StringObject) :
    (hash.node value : ValueNode σ).read = .ok value.decoded := by
  cases hash with
  | zipmap _ => rfl
  | table _ =>
    cases value with
    | raw bytes => rfl
    | int value => rfl

theorem hget_refines {field : Bytes} (unread : (hashOf slot).misreads field = false) :
    Refines clock slot (hgetCommand (plain field) (slot.map Slot.entry))
      ((HashRequest.hget field).step settings client spec) := by
  cases shows with
  | absent => exact refines_keep .absent _ _
  | @present hash map version logiclock expire holds young =>
    obtain ⟨found, got, same, _⟩ := holds.get unread
    change Refines clock _ (hash.get (plain field) >>= _)
      (_, (map.lookup field).elim _ _)
    rw [got, ← same]
    cases found with
    | none => exact ⟨_, rfl, rfl, .present holds young⟩
    | some value =>
      refine ⟨_, rfl, ?_, .present holds young⟩
      change ((hash.node value : ValueNode σ).read.map MapAnswer.value).map _ = _
      rw [RedisHash.read_node]
      rfl

theorem hexists_refines {field : Bytes} (unread : (hashOf slot).misreads field = false) :
    Refines clock slot (hexistsCommand (plain field) (slot.map Slot.entry))
      ((HashRequest.hexists field).step settings client spec) := by
  cases shows with
  | absent => exact refines_keep .absent _ _
  | @present hash map version logiclock expire holds young =>
    obtain ⟨found, got, same, _⟩ := holds.get unread
    change Refines clock _ (hash.get (plain field) >>= _)
      (_, { code := if (map.lookup field).isSome then _ else _, answer := _ })
    rw [got, ← same, Option.isSome_map]
    exact ⟨_, rfl, rfl, .present holds young⟩

theorem hlen_refines :
    Refines clock slot (hlenCommand (slot.map Slot.entry))
      (HashRequest.hlen.step settings client spec) := by
  cases shows with
  | absent => exact refines_keep .absent _ _
  | @present hash map version logiclock expire holds young =>
    refine ⟨_, rfl, ?_, .present holds young⟩
    change Except.ok _ = Except.ok _
    rw [holds.length]
    rfl

end

theorem HashRequest.refines [LinearOrder σ] (server : Server σ)
    (shows : Represents clock slot spec) {request : HashRequest}
    (safe : request.safe server.settings client slot = true) :
    Refines clock slot (request.command.action server client (slot.map Slot.entry))
      (request.step server.settings client spec) := by
  have readsOf (field : Bytes) (unwritten : request.writes = false)
      (reads : request.reads server.settings (hashOf slot) = !(hashOf slot).misreads field) :
      (hashOf slot).misreads field = false := by
    unfold HashRequest.safe at safe
    rw [unwritten, Bool.false_and, Bool.false_or, reads, Bool.and_eq_true,
      Bool.not_eq_true'] at safe
    exact safe.2
  cases request with
  | hset field value => exact hset_refines shows safe
  | hsetnx field value => exact hsetnx_refines shows safe
  | hmset pairs => exact hmset_refines shows safe
  | hincrby field incr => exact hincrby_refines shows safe
  | hdel field => exact hdel_refines shows field
  | hget field => exact hget_refines shows (readsOf field rfl rfl)
  | hexists field => exact hexists_refines shows (readsOf field rfl rfl)
  | hlen => exact hlen_refines shows

end Steps

/-! ### Runs -/

/-- In a run of safe requests the replies are those of a finite map, whatever encodings the hash
goes through. -/
theorem RedisDb.hash_refines_map [LinearOrder σ] (server : Server σ) {key : Bytes}
    {db : RedisDb σ} {abstract : Option MapSlot} (sane : db.Sane)
    (represents : Represents db.logiclock (db.slot key) abstract) {events : List TimedRequest}
    (safe : db.safely server key events = true) :
    hashReplies server key db events = .ok (mapReplies server.settings abstract events) := by
  induction events generalizing db abstract with
  | nil => rfl
  | cons timed later ih =>
    obtain ⟨safeHere, safeLater⟩ := Bool.and_eq_true _ _ |>.mp safe
    obtain ⟨outcome, acted, answered, next⟩ :=
      HashRequest.refines server (represents.live timed.now) safeHere
    obtain ⟨after, ran⟩ := run_of_action sane.tidy (sane.clocked_key key) acted
    have changed := (changed_run sane.tidy ran).2
    have afterSane : after.Sane :=
      changed.sane sane (inTime_apply sane.started (inTime_live sane timed.now key) _)
    rw [ran] at safeLater
    change Represents db.logiclock (outcome.change.apply db.logiclock (db.live timed.now key)) _
      at next
    rw [← changed.here, ← changed.clock] at next
    have rest := ih afterSane next safeLater
    unfold hashReplies
    rw [ran]
    change (outcome.mapReply >>= _) = _
    rw [answered]
    change (hashReplies server key after later >>= _) = _
    rw [rest]
    rfl

def quickServer : Server Nat :=
  { wholeServer with settings := { wholeServer.settings with hashMaxZipmapEntries := 1 } }

def plainClient : Client := { version := 0, versionCare := true, expiretime := 0 }

/-- The fields are `a` and `b`, and `b` has the value `7` when the hash turns into a table. -/
theorem hash_refines_map_converted :
    hashReplies quickServer [107] RedisDb.fresh
        [⟨1, plainClient, .hset [97] [120]⟩, ⟨2, plainClient, .hmset [([98], [55])]⟩,
          ⟨3, plainClient, .hincrby [98] 1⟩, ⟨4, plainClient, .hget [98]⟩] =
      .ok (mapReplies quickServer.settings none
        [⟨1, plainClient, .hset [97] [120]⟩, ⟨2, plainClient, .hmset [([98], [55])]⟩,
          ⟨3, plainClient, .hincrby [98] 1⟩, ⟨4, plainClient, .hget [98]⟩]) :=
  RedisDb.hash_refines_map quickServer RedisDb.sane_fresh .absent rfl

/-- The field `5` is kept as an integer once the hash is a table, and reading its value takes the
integer for an address. -/
theorem hash_reads_integer :
    hashReplies quickServer [107] RedisDb.fresh
        [⟨1, plainClient, .hset [97] [120]⟩, ⟨2, plainClient, .hset [53] [121]⟩,
          ⟨3, plainClient, .hget [53]⟩] = .error .wildPointer ∧
      mapReplies quickServer.settings none
        [⟨1, plainClient, .hset [97] [120]⟩, ⟨2, plainClient, .hset [53] [121]⟩,
          ⟨3, plainClient, .hget [53]⟩] =
        [⟨.ok, .nothing⟩, ⟨.ok, .nothing⟩, ⟨.ok, .value [121]⟩] :=
  ⟨rfl, rfl⟩

end Tair.Rdb
