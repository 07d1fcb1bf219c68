/-
How the client gets its table of servers and finds the servers of a key in it. It takes a whole
table when it starts, and writes each later one over the one it has.
-/

import Tair.Common.DataEntry
import Tair.Common.Hash

namespace Tair.Client

open Tair.Library Tair.Common

inductive Crash where
  | assertFailed
  | nullReply
  | outOfRange
  | divisionByZero
deriving DecidableEq, Repr

/-- The two functions of zlib. The first argument of each is the room for its result. -/
structure Zlib where
  compress : Nat → List UInt8 → Option (List UInt8)
  uncompress : Nat → List UInt8 → Option (List UInt8)
  compress_ne_nil : ∀ {room source packed}, compress room source = some packed → packed ≠ []
  uncompress_compress : ∀ {room space source packed}, compress room source = some packed →
    source.length ≤ space → uncompress space packed = some source

/-! ### Tables in memory -/

def tableBytes (entries : List UInt64) : List UInt8 :=
  entries.flatMap fun entry => leBytes 8 entry.toNat

def entriesOf : List UInt8 → List UInt64
  | b0 :: b1 :: b2 :: b3 :: b4 :: b5 :: b6 :: b7 :: rest =>
    UInt64.ofNat (leValue [b0, b1, b2, b3, b4, b5, b6, b7]) :: entriesOf rest
  | _ => []

@[simp]
theorem tableBytes_length (entries : List UInt64) :
    (tableBytes entries).length = entries.length * 8 := by
  induction entries with
  | nil => rfl
  | cons entry rest ih =>
    rw [tableBytes, List.flatMap_cons, List.length_append, leBytes_length, ← tableBytes, ih,
      List.length_cons]
    omega

theorem entriesOf_tableBytes (entries : List UInt64) :
    entriesOf (tableBytes entries) = entries := by
  induction entries with
  | nil => rfl
  | cons entry rest ih =>
    change UInt64.ofNat (leValue (leBytes 8 entry.toNat)) :: entriesOf (tableBytes rest) = _
    rw [leValue_leBytes_of_lt entry.toNat_lt, UInt64.ofNat_toNat, ih]

/-! ### The config server -/

/-- The tables that a config server publishes for a group, one with each version. -/
structure Group where
  bucketCount : Nat
  copyCount : Nat
  hasBuckets : 0 < bucketCount
  hasCopies : 0 < copyCount
  table : UInt32 → List UInt64
  whole : ∀ version, (table version).length = bucketCount * copyCount

/-- The loop of `deflate_hash_table` that goes down from `index`. It looks at bytes. -/
def lastUsed (memory : List UInt8) : Nat → Nat
  | 0 => 0
  | index + 1 => if memory.getD index 0 ≠ 0 then index else lastUsed memory index

def roundUp (bucketCount index : Nat) : Nat :=
  if index % bucketCount = 0 then index else index - index % bucketCount + bucketCount

/-- `deflate_hash_table` for the table that the clients get. -/
def deflateHashTable (zlib : Zlib) (bucketCount : Nat) (entries : List UInt64) :
    Option (List UInt8) :=
  let found := lastUsed (tableBytes entries) entries.length
  if found = 0 then none
  else
    let sourceLen := roundUp bucketCount found * 8
    zlib.compress sourceLen ((tableBytes entries).take sourceLen)

/-- `response_get_group`. -/
structure GroupReply where
  bucketCount : Nat
  copyCount : Nat
  configVersion : UInt32
  hashTable : Option (List UInt8)
deriving DecidableEq, Repr

/-- `set_hash_table` keeps data of a size from 1 to `TAIR_MAX_DATA_SIZE`. -/
def setHashTable (data : Option (List UInt8)) : Option (List UInt8) :=
  data.filter fun bytes => 0 < bytes.length ∧ bytes.length ≤ tairMaxDataSize

/-- `find_group_host` while this version is current, for a request of a client that names the
version `known`. -/
def findGroupHost (zlib : Zlib) (group : Group) (known version : UInt32) : GroupReply where
  bucketCount := group.bucketCount
  copyCount := group.copyCount
  configVersion := version
  hashTable :=
    if known = version then none
    else setHashTable (deflateHashTable zlib group.bucketCount (group.table version))

/-! ### The client -/

/-- The fields of `tair_client_impl` that calls and updates use. -/
structure ClientState where
  direct : Bool
  dataServer : UInt64
  bucketCount : Nat
  copyCount : Nat
  dsServerList : List UInt64
  configVersion : UInt32
  newConfigVersion : UInt32
  sendFailCount : Nat
deriving DecidableEq, Repr

/-- The client before `startup`. -/
def ClientState.fresh : ClientState where
  direct := false
  dataServer := 0
  bucketCount := 0
  copyCount := 0
  dsServerList := []
  configVersion := 0
  newConfigVersion := 0
  sendFailCount := 0

def getServerList (zlib : Zlib) (bucketCount copyCount : Nat) (reply : GroupReply) :
    Option (List UInt64) :=
  reply.hashTable.bind fun data =>
    (zlib.uncompress (bucketCount * copyCount * 3 * 8) data).map entriesOf

def ClientState.withTable (client : ClientState) (reply : GroupReply) (servers : List UInt64) :
    ClientState :=
  { client with
    bucketCount := reply.bucketCount
    copyCount := reply.copyCount
    dsServerList := client.dsServerList ++ servers
    configVersion := reply.configVersion
    newConfigVersion := reply.configVersion }

/-- The part of `retrieve_server_addr` behind its loop. The result is `none` where the source
returns false. -/
def takeTable (zlib : Zlib) (client : ClientState) (reply : GroupReply) :
    Except Crash (Option ClientState) :=
  if reply.configVersion = 0 then .ok none
  else if reply.bucketCount = 0 ∨ reply.copyCount = 0 then .ok none
  else
    (getServerList zlib reply.bucketCount reply.copyCount reply).elim (.ok none) fun servers =>
      if servers.length = 0 then .ok none
      else if servers.length = reply.bucketCount * reply.copyCount then
        .ok (some (client.withTable reply servers))
      else .error .assertFailed

/-- `retrieve_server_addr`: the config servers are asked in turn, and one that cannot be reached,
is silent or sends a packet of another type has the answer `none`. -/
def retrieveServerAddr (zlib : Zlib) (client : ClientState) :
    List (Option GroupReply) → Except Crash (Option ClientState)
  | [] => .ok none
  | none :: rest => retrieveServerAddr zlib client rest
  | some reply :: _ => takeTable zlib client reply

/-- The entries that come are written over those that are there, and no list grows. -/
def overwrite (old new : List UInt64) : List UInt64 :=
  let count := min new.length old.length
  new.take count ++ old.drop count

/-- `handlePacket` for a `response_get_group` that the update thread asked for. -/
def handlePacket (zlib : Zlib) (client : ClientState) (reply : GroupReply) : ClientState :=
  if client.configVersion = reply.configVersion then
    { client with newConfigVersion := reply.configVersion }
  else
    { client with
      newConfigVersion := reply.configVersion
      configVersion := reply.configVersion
      dsServerList :=
        (getServerList zlib client.bucketCount client.copyCount reply).elim client.dsServerList
          (overwrite client.dsServerList) }

def serverAt (client : ClientState) (hash : UInt32) (copy : Nat) : Except Crash UInt64 :=
  (client.dsServerList[hash.toNat % client.bucketCount + copy * client.bucketCount]?).elim
    (.error .outOfRange) .ok

def getServerId (client : ClientState) (hash : UInt32) : Except Crash (List UInt64) :=
  if client.direct then .ok [client.dataServer]
  else if client.bucketCount = 0 then .error .divisionByZero
  else
    ((List.range (min client.copyCount client.dsServerList.length)).mapM
      (serverAt client hash)).map fun line => line.filter (· ≠ 0)

def serversOf (client : ClientState) (key : List UInt8) : Except Crash (List UInt64) :=
  getServerId client (murMurHash key)

/-! ### Clients that have started -/

/-- What `startup` and `directup` leave and updates keep. -/
structure Started (client : ClientState) : Prop where
  hasBuckets : 0 < client.bucketCount
  whole : client.dsServerList.length = client.bucketCount * client.copyCount
  reachable : client.direct = true → client.dataServer ≠ 0

variable {zlib : Zlib} {client : ClientState} {index : Nat} {group : Group} {version : UInt32}

theorem Started.serverAt_ok (started : Started client) (hash : UInt32) {copy : Nat}
    (below : copy < client.copyCount) :
    ∃ server ∈ client.dsServerList, serverAt client hash copy = .ok server := by
  have inside : hash.toNat % client.bucketCount + copy * client.bucketCount <
      client.dsServerList.length := by
    have first := Nat.mod_lt hash.toNat started.hasBuckets
    have lines := Nat.mul_le_mul_right client.bucketCount (Nat.succ_le_of_lt below)
    rw [Nat.succ_mul] at lines
    rw [started.whole, Nat.mul_comm client.bucketCount]
    omega
  refine ⟨_, List.getElem_mem inside, ?_⟩
  rw [serverAt, List.getElem?_eq_getElem inside]
  rfl

theorem Started.line_ok (started : Started client) (hash : UInt32) (copies : List Nat)
    (below : ∀ copy ∈ copies, copy < client.copyCount) :
    ∃ line, copies.mapM (serverAt client hash) = .ok line ∧
      ∀ server ∈ line, server ∈ client.dsServerList := by
  induction copies with
  | nil => exact ⟨[], rfl, fun _ member => absurd member List.not_mem_nil⟩
  | cons copy rest ih =>
    obtain ⟨line, isLine, listed⟩ := ih fun other member =>
      below other (List.mem_cons_of_mem _ member)
    obtain ⟨first, member, isFirst⟩ := started.serverAt_ok hash (below copy List.mem_cons_self)
    refine ⟨first :: line, ?_, List.forall_mem_cons.mpr ⟨member, listed⟩⟩
    rw [List.mapM_cons, isFirst, isLine]
    rfl

theorem Started.getServerId_ok (started : Started client) (hash : UInt32) :
    ∃ servers, getServerId client hash = .ok servers ∧ 0 ∉ servers ∧
      (client.direct = false → ∀ server ∈ servers, server ∈ client.dsServerList) := by
  unfold getServerId
  by_cases direct : client.direct = true
  · rw [if_pos direct]
    refine ⟨_, rfl, ?_, fun indirect => ?_⟩
    · simpa using (started.reachable direct).symm
    · rw [direct] at indirect
      cases indirect
  · rw [if_neg direct, if_neg started.hasBuckets.ne']
    obtain ⟨line, isLine, listed⟩ := started.line_ok hash (List.range _) fun copy member =>
      (List.mem_range.mp member).trans_le (min_le_left _ _)
    rw [isLine]
    refine ⟨_, rfl, by simp, fun _ server member => ?_⟩
    exact listed server (List.mem_of_mem_filter member)

/-! ### What the packets carry -/

/-- A table that comes to the clients as a whole. The loop of `deflate_hash_table` looks at as many
bytes as the table has entries; one of the last of them is in use, and the compressed table is no
longer than the table and than the largest data. -/
structure Carried (zlib : Zlib) (group : Group) (version : UInt32) : Prop where
  counted : version ≠ 0
  used : ∃ position, group.bucketCount * group.copyCount < position + group.bucketCount ∧
    position < group.bucketCount * group.copyCount ∧
    (tableBytes (group.table version)).getD position 0 ≠ 0
  packed : ∃ packed, zlib.compress (group.bucketCount * group.copyCount * 8)
    (tableBytes (group.table version)) = some packed ∧ packed.length ≤ tairMaxDataSize

theorem lastUsed_lt (memory : List UInt8) (pos : 0 < index) : lastUsed memory index < index := by
  induction index with
  | zero => omega
  | succ index ih =>
    rw [lastUsed]
    split_ifs
    · omega
    · rcases Nat.eq_zero_or_pos index with rfl | above
      · exact Nat.one_pos
      · exact (ih above).trans (Nat.lt_succ_self index)

theorem le_lastUsed {memory : List UInt8} {position : Nat} (below : position < index)
    (used : memory.getD position 0 ≠ 0) : position ≤ lastUsed memory index := by
  induction index with
  | zero => omega
  | succ index ih =>
    rw [lastUsed]
    split_ifs with here
    · omega
    · refine ih (lt_of_le_of_ne (Nat.le_of_lt_succ below) ?_)
      rintro rfl
      exact here used

theorem roundUp_last {bucketCount copyCount : Nat}
    (above : bucketCount * copyCount < index + bucketCount)
    (below : index < bucketCount * copyCount) :
    roundUp bucketCount index = bucketCount * copyCount := by
  cases copyCount with
  | zero => omega
  | succ lines =>
    rw [Nat.mul_succ] at above below ⊢
    obtain ⟨rest, rfl⟩ := Nat.exists_eq_add_of_lt (show bucketCount * lines < index by omega)
    have remainder : (bucketCount * lines + rest + 1) % bucketCount = rest + 1 := by
      rw [Nat.add_assoc, Nat.mul_add_mod, Nat.mod_eq_of_lt (by omega)]
    rw [roundUp, remainder, if_neg (Nat.succ_ne_zero rest)]
    omega

theorem Carried.deflate (carried : Carried zlib group version) :
    deflateHashTable zlib group.bucketCount (group.table version) =
      zlib.compress (group.bucketCount * group.copyCount * 8)
        (tableBytes (group.table version)) := by
  obtain ⟨position, above, below, used⟩ := carried.used
  have late := le_lastUsed below used
  have early := lastUsed_lt (tableBytes (group.table version)) (Nat.zero_lt_of_lt below)
  have large : group.bucketCount ≤ group.bucketCount * group.copyCount :=
    Nat.le_mul_of_pos_right _ group.hasCopies
  unfold deflateHashTable
  dsimp only
  rw [group.whole, if_neg (by omega), roundUp_last (by omega) early, List.take_of_length_le]
  rw [tableBytes_length, group.whole]

theorem Carried.getServerList_findGroupHost (carried : Carried zlib group version) :
    getServerList zlib group.bucketCount group.copyCount (findGroupHost zlib group 0 version) =
      some (group.table version) := by
  obtain ⟨packed, isPacked, small⟩ := carried.packed
  have sent : (findGroupHost zlib group 0 version).hashTable = some packed := by
    have nonempty := List.length_pos_of_ne_nil (zlib.compress_ne_nil isPacked)
    change (if 0 = version then none else setHashTable _) = _
    rw [if_neg carried.counted.symm, carried.deflate, isPacked, setHashTable]
    exact Option.filter_some_pos (decide_eq_true (And.intro nonempty small))
  have back : zlib.uncompress (group.bucketCount * group.copyCount * 3 * 8) packed =
      some (tableBytes (group.table version)) := by
    refine zlib.uncompress_compress isPacked ?_
    rw [tableBytes_length, group.whole]
    omega
  rw [getServerList, sent, Option.bind_some, back, Option.map_some, entriesOf_tableBytes]

/-! ### Runs of a client -/

/-- `startup`: the answers are the versions that the config servers have when they are asked. -/
def startUp (zlib : Zlib) (group : Group) (answers : List (Option UInt32)) :
    Except Crash (Option ClientState) :=
  retrieveServerAddr zlib .fresh (answers.map (Option.map (findGroupHost zlib group 0)))

def update (zlib : Zlib) (group : Group) (client : ClientState) (versions : List UInt32) :
    ClientState :=
  versions.foldl (fun client version =>
    handlePacket zlib client (findGroupHost zlib group 0 version)) client

structure Routed (group : Group) (client : ClientState) : Prop where
  indirect : client.direct = false
  bucketCount : client.bucketCount = group.bucketCount
  copyCount : client.copyCount = group.copyCount
  table : client.dsServerList = group.table client.configVersion

theorem Routed.started (routed : Routed group client) :
    Started client where
  hasBuckets := by rw [routed.bucketCount]; exact group.hasBuckets
  whole := by rw [routed.table, group.whole, routed.bucketCount, routed.copyCount]
  reachable direct := by rw [routed.indirect] at direct; cases direct

theorem takeTable_routed (carried : Carried zlib group version) :
    ∃ client, takeTable zlib .fresh (findGroupHost zlib group 0 version) = .ok (some client) ∧
      Routed group client := by
  have filled : (group.table version).length ≠ 0 := by
    rw [group.whole]
    exact (Nat.mul_pos group.hasBuckets group.hasCopies).ne'
  have counted : (findGroupHost zlib group 0 version).configVersion ≠ 0 := carried.counted
  have counts : ¬((findGroupHost zlib group 0 version).bucketCount = 0 ∨
      (findGroupHost zlib group 0 version).copyCount = 0) := by
    rintro (absent | absent)
    · exact group.hasBuckets.ne' absent
    · exact group.hasCopies.ne' absent
  refine ⟨ClientState.fresh.withTable (findGroupHost zlib group 0 version) (group.table version),
    ?_, rfl, rfl, rfl, rfl⟩
  rw [takeTable, if_neg counted, if_neg counts]
  change Option.elim (getServerList zlib group.bucketCount group.copyCount _) _ _ = _
  rw [carried.getServerList_findGroupHost, Option.elim_some, if_neg filled]
  exact if_pos (group.whole version)

theorem startUp_routed {answers : List (Option UInt32)}
    (carried : ∀ version, some version ∈ answers → Carried zlib group version) :
    ∃ started, startUp zlib group answers = .ok started ∧
      ∀ client, started = some client → Routed group client := by
  unfold startUp
  induction answers with
  | nil => exact ⟨none, rfl, fun client absent => nomatch absent⟩
  | cons answer rest ih =>
    cases answer with
    | none => exact ih fun version member => carried version (List.mem_cons_of_mem _ member)
    | some version =>
      obtain ⟨client, taken, routed⟩ := takeTable_routed (carried version List.mem_cons_self)
      refine ⟨some client, taken, fun other same => ?_⟩
      cases same
      exact routed

theorem Routed.handlePacket (routed : Routed group client) (carried : Carried zlib group version) :
    Routed group (handlePacket zlib client (findGroupHost zlib group 0 version)) := by
  unfold Client.handlePacket
  split_ifs
  · exact { routed with }
  · refine ⟨routed.indirect, routed.bucketCount, routed.copyCount, ?_⟩
    dsimp only
    rw [routed.bucketCount, routed.copyCount, carried.getServerList_findGroupHost,
      Option.elim_some, overwrite, group.whole, routed.table, group.whole, min_self,
      List.take_of_length_le, List.drop_of_length_le, List.append_nil]
    · rfl
    · rw [group.whole]
    · rw [group.whole]

theorem Routed.update {versions : List UInt32} (routed : Routed group client)
    (carried : ∀ version ∈ versions, Carried zlib group version) :
    Routed group (update zlib group client versions) := by
  unfold Client.update
  induction versions generalizing client with
  | nil => exact routed
  | cons version rest ih =>
    refine ih (routed.handlePacket (carried version List.mem_cons_self)) ?_
    exact fun other member => carried other (List.mem_cons_of_mem _ member)

/-- Among tables that come as a whole the client routes by the table of its version. -/
theorem routes_by_its_table (zlib : Zlib) (group : Group) (answers : List (Option UInt32))
    (versions : List UInt32) (carried : ∀ version, some version ∈ answers ∨ version ∈ versions →
      Carried zlib group version) :
    ∃ started, startUp zlib group answers = .ok started ∧
      ∀ client, started = some client →
        (update zlib group client versions).dsServerList =
            group.table (update zlib group client versions).configVersion ∧
          (update zlib group client versions).dsServerList.length =
            (update zlib group client versions).bucketCount *
              (update zlib group client versions).copyCount ∧
          ∀ hash, ∃ servers, getServerId (update zlib group client versions) hash = .ok servers ∧
            ∀ server ∈ servers,
              server ∈ group.table (update zlib group client versions).configVersion := by
  obtain ⟨started, isStarted, routed⟩ := startUp_routed fun version member =>
    carried version (.inl member)
  refine ⟨started, isStarted, fun client isClient => ?_⟩
  have updated := (routed client isClient).update fun version member =>
    carried version (.inr member)
  refine ⟨updated.table, updated.started.whole, fun hash => ?_⟩
  obtain ⟨servers, isServers, -, listed⟩ := updated.started.getServerId_ok hash
  refine ⟨servers, isServers, fun server member => ?_⟩
  rw [← updated.table]
  exact listed updated.indirect server member

/-! ### Tables with lost buckets -/

def storing : Zlib where
  compress room source := if source ≠ [] ∧ source.length ≤ room then some source else none
  uncompress space packed := if packed.length ≤ space then some packed else none
  compress_ne_nil := by
    intro room source packed isPacked
    obtain ⟨condition, same⟩ := Option.ite_none_right_eq_some.mp isPacked
    cases same
    exact condition.1
  uncompress_compress := by
    intro room space source packed isPacked fits
    obtain ⟨condition, same⟩ := Option.ite_none_right_eq_some.mp isPacked
    cases same
    exact if_pos fits

/-- Servers `192.168.0.1:5191` and `192.168.0.2:5191`. -/
def firstServer : UInt64 := 0x14470100A8C0
def secondServer : UInt64 := 0x14470200A8C0

/-- Two lines of eight buckets. In version 11 the second bucket has no server, in version 12 the
first has none either. -/
def losingGroup : Group where
  bucketCount := 8
  copyCount := 2
  hasBuckets := Nat.succ_pos 7
  hasCopies := Nat.two_pos
  table version :=
    if version = 11 then secondServer :: 0 :: List.replicate 14 secondServer
    else if version = 12 then 0 :: 0 :: List.replicate 14 secondServer
    else if version = 10 then List.replicate 16 firstServer
    else List.replicate 16 secondServer
  whole version := by split_ifs <;> rfl

theorem losingGroup_carried (counted : version ≠ 0)
    (used : (tableBytes (losingGroup.table version)).getD 9 0 ≠ 0) :
    Carried storing losingGroup version := by
  have length : (tableBytes (losingGroup.table version)).length = 128 := by
    rw [tableBytes_length, losingGroup.whole]
    rfl
  refine ⟨counted, ⟨9, by decide, by decide, used⟩, _, if_pos ⟨?_, length.le⟩, ?_⟩
  · rw [length]
    decide
  · intro empty
    rw [empty] at length
    cases length

theorem routes_by_its_table_kept :
    ∃ started, startUp storing losingGroup [none, some 10] = .ok started ∧
      ∀ client, started = some client →
        (update storing losingGroup client [13]).dsServerList =
            losingGroup.table (update storing losingGroup client [13]).configVersion ∧
          (update storing losingGroup client [13]).dsServerList.length =
            (update storing losingGroup client [13]).bucketCount *
              (update storing losingGroup client [13]).copyCount ∧
          ∀ hash, ∃ servers,
            getServerId (update storing losingGroup client [13]) hash = .ok servers ∧
            ∀ server ∈ servers, server ∈
              losingGroup.table (update storing losingGroup client [13]).configVersion := by
  refine routes_by_its_table storing losingGroup [none, some 10] [13] ?_
  intro version received
  have either : version = 10 ∨ version = 13 := by simpa using received
  rcases either with rfl | rfl
  · exact losingGroup_carried (by decide) (by decide +kernel)
  · exact losingGroup_carried (by decide) (by decide +kernel)

/-- A client that starts with version 11 gets eight of sixteen entries and stops. One that has
version 10 gets nothing with version 12 and keeps its servers under the new version. -/
theorem lost_bucket_misroutes :
    startUp storing losingGroup [some 11] = .error .assertFailed ∧
      ∃ client, startUp storing losingGroup [some 10] = .ok (some client) ∧
        (update storing losingGroup client [12]).configVersion = 12 ∧
          getServerId (update storing losingGroup client [12]) 0 =
            .ok [firstServer, firstServer] ∧
          firstServer ∉ losingGroup.table 12 := by
  refine ⟨by decide +kernel, ClientState.fresh.withTable (findGroupHost storing losingGroup 0 10)
    (losingGroup.table 10), ?_⟩
  decide +kernel

end Tair.Client
