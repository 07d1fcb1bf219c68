/-
The answer to a heartbeat on the wire. The deflated table goes out only if it is not too long for
a packet, but its length always does, and the reader compares this length with what is left.
-/

import Tair.Common.Fault
import Tair.Packets.Classes

namespace Tair.Packets

open Tair.Common Tair.Library

/-- `response_heartbeat`. `hashTable` is what `set_hash_table` was called with; without news of
the plugins there are no names. The numbers that count have room for their lists. -/
structure HeartbeatReply where
  clientVersion : UInt32
  serverVersion : UInt32
  bucketCount : UInt32
  copyCount : UInt32
  downSlaveConfigServer : UInt64
  dataNeedMove : UInt32
  hashTable : List UInt8
  groupName : List UInt8
  pluginsVersion : UInt32
  pluginsDllNames : Option (List (List UInt8))
  areaCapacityVersion : UInt32
  areaCapacityInfo : List (UInt32 × UInt64)
  migratedInfo : List UInt64
  hashTableFits : hashTable.length < 2147483648
  groupNameSize : groupName.length = 64
  pluginsFit : (pluginsDllNames.getD []).length < 2147483648
  areasFit : areaCapacityInfo.length < 4294967296

namespace HeartbeatReply

variable (reply : HeartbeatReply)

/-- `-1` unless it is the number of names. -/
def pluginsFlag : UInt32 :=
  reply.pluginsDllNames.elim 0xFFFFFFFF fun names => UInt32.ofNat names.length

/-- Names are cut to `TAIR_MAX_FILENAME_LEN - 1` bytes. -/
def writeName (name : List UInt8) : List UInt8 := putDataEntry (name.take 255)

def writeCapacity (row : UInt32 × UInt64) : List UInt8 := writeInt32 row.1 ++ writeInt64 row.2

def writtenTable : List UInt8 :=
  if reply.hashTable.length ≤ tairMaxDataSize then reply.hashTable else []

def writtenInfo : List UInt8 :=
  writeInt32 (UInt32.ofNat reply.migratedInfo.length) ++ reply.migratedInfo.flatMap writeInt64

def behindTable : List UInt8 :=
  reply.groupName ++ (writeInt32 reply.pluginsFlag ++ (writeInt32 reply.pluginsVersion ++
    ((reply.pluginsDllNames.getD []).flatMap writeName ++ (writeInt32 reply.areaCapacityVersion ++
      (writeInt32 (UInt32.ofNat reply.areaCapacityInfo.length) ++
        (reply.areaCapacityInfo.flatMap writeCapacity ++ reply.writtenInfo))))))

def body : List UInt8 :=
  writeInt32 reply.clientVersion ++ (writeInt32 reply.serverVersion ++
    (writeInt32 reply.bucketCount ++ (writeInt32 reply.copyCount ++
      (writeInt64 reply.downSlaveConfigServer ++ (writeInt32 reply.dataNeedMove ++
        (writeInt32 (UInt32.ofNat reply.hashTable.length) ++
          (reply.writtenTable ++ reply.behindTable)))))))

def encode : Except Fault (List UInt8) :=
  if reply.migratedInfo ≠ [] ∧ reply.migratedInfo.length % (reply.copyCount + 1).toNat ≠ 0 then
    .error .assertFailed
  else .ok reply.body

def lengthBehind : Nat :=
  64 + ((reply.pluginsDllNames.getD []).map fun name => 4 + min 255 name.length).sum +
    12 * reply.areaCapacityInfo.length + 8 * reply.migratedInfo.length + 20

theorem length_behindTable : reply.behindTable.length = reply.lengthBehind := by
  have names (all : List (List UInt8)) : (all.flatMap writeName).length =
      (all.map fun name => 4 + min 255 name.length).sum := by
    rw [List.length_flatMap]
    congr 2
    funext name
    rw [writeName, putDataEntry, List.length_append, writeInt32_length, List.length_take]
  have rows (all : List (UInt32 × UInt64)) :
      (all.flatMap writeCapacity).length = 12 * all.length := by
    simp [List.length_flatMap, writeCapacity, Nat.mul_comm]
  simp only [behindTable, writtenInfo, lengthBehind, List.length_append, writeInt32_length, names,
    rows, reply.groupNameSize, List.length_flatMap, writeInt64_length, List.map_const',
    List.sum_replicate]
  simp
  omega

end HeartbeatReply

/-! ### Packets that deliver a list -/

/-- What a field pushes back to `migrated_info`. -/
def migratedEntry : Name × Value → List UInt64
  | (.migratedInfo, .int64 entry) => [entry]
  | _ => []

def Fields.migratedInfo (fields : Fields) : List UInt64 := fields.flatMap migratedEntry

theorem migratedEntry_other {name : Name} (other : name ≠ .migratedInfo) (value : Value) :
    migratedEntry (name, value) = [] := by
  unfold migratedEntry
  split
  · rename_i same
    exact absurd (congrArg Prod.fst same) other
  · rfl

def Carries (reading : Reading Fields) (more : List UInt8) (info : List UInt64) : Prop :=
  ∃ fields, reading = .done fields more ∧ Fields.migratedInfo fields = info

section Readings

variable {rest more : List UInt8} {info : List UInt64}

theorem run_item {atom : Atom} {name : Name} {next : Value → Layout} {value : Value}
    {front : List UInt8} (first : atom.Spells value front) :
    (Layout.item atom name next).read.run (front ++ rest) =
      ((next value).read.run rest).map ((name, value) :: ·) := by
  rw [Layout.read, Reader.run_bind_of_done first.run, Reader.run_bind]
  cases (next value).read.run rest with
  | done fields left => rfl
  | refused left => rfl
  | misused kind => rfl

theorem carries_item {atom : Atom} {name : Name} {next : Value → Layout} {value : Value}
    {front : List UInt8} (first : atom.Spells value front) (other : name ≠ .migratedInfo) :
    Carries ((Layout.item atom name next).read.run (front ++ rest)) more info ↔
      Carries ((next value).read.run rest) more info := by
  have same (fields : Fields) :
      Fields.migratedInfo ((name, value) :: fields) = fields.migratedInfo := by
    rw [Fields.migratedInfo, List.flatMap_cons, migratedEntry_other other]
    rfl
  rw [run_item first]
  cases (next value).read.run rest with
  | done fields left => simp [Carries, Reading.map, same]
  | refused left => simp [Carries, Reading.map]
  | misused kind => simp [Carries, Reading.map]

theorem carries_rows {α : Type} {row : List (Atom × Name)} {write : α → List UInt8}
    (each : ∀ (entry : α) (next : Unit → Layout) (back : List UInt8),
      Carries ((Layout.fields row next).read.run (write entry ++ back)) more info ↔
        Carries ((next ()).read.run back) more info) (next : Unit → Layout) (entries : List α) :
    Carries ((Layout.rows entries.length row next).read.run (entries.flatMap write ++ rest))
      more info ↔ Carries ((next ()).read.run rest) more info := by
  induction entries with
  | nil => exact Iff.rfl
  | cons entry others ih =>
    rw [List.flatMap_cons, List.append_assoc]
    exact (each entry _ _).trans ih

theorem carries_entries (info : List UInt64) (more : List UInt8) :
    Carries ((Layout.rows info.length [(.int64, .migratedInfo)] fun _ => .done).read.run
      (info.flatMap writeInt64 ++ more)) more info := by
  induction info with
  | nil => exact ⟨[], rfl, rfl⟩
  | cons entry others ih =>
    obtain ⟨fields, ends, delivered⟩ := ih
    refine ⟨(.migratedInfo, .int64 entry) :: fields, ?_, congrArg (entry :: ·) delivered⟩
    rw [List.flatMap_cons, List.append_assoc]
    exact (run_item (.int64 entry)).trans (congrArg (Reading.map _) ends)

end Readings

def behindTable (copies : Value) : Layout :=
  .fields [(.blob 64, .groupName)] fun _ => .item .int32 .pluginsFlag fun plugins =>
    .fields [(.int32, .pluginsVersion)] fun _ => .rows plugins.count [(.dllName, .dllName)] fun _ =>
      areaCapacities fun _ => .item .int32 .size fun migrated =>
        if copies.word = 0xFFFFFFFF then .abort
        else .rows migrated.count [(.int64, .migratedInfo)] fun _ => .done

namespace HeartbeatReply

variable {reply : HeartbeatReply}

theorem count_ofNat {count : Nat} (small : count < 2147483648) :
    (Value.int32 (UInt32.ofNat count)).count = count := by
  rw [Value.count, Value.word, signed_ofNat small, Int.toNat_natCast]

theorem count_pluginsFlag : (Value.int32 reply.pluginsFlag).count =
    (reply.pluginsDllNames.getD []).length := by
  have fits := reply.pluginsFit
  unfold pluginsFlag
  cases names : reply.pluginsDllNames with
  | none => rfl
  | some list =>
    rw [names] at fits
    exact count_ofNat fits

theorem behindTable_carries (few : reply.migratedInfo.length < 2147483648)
    (copies : reply.copyCount ≠ 0xFFFFFFFF) (more : List UInt8) :
    Carries ((Packets.behindTable (.int32 reply.copyCount)).read.run (reply.behindTable ++ more))
      more reply.migratedInfo := by
  have blob : (Atom.blob 64).Spells (.text (some reply.groupName)) reply.groupName := by
    have spells := Atom.Spells.blob reply.groupName
    rw [reply.groupNameSize] at spells
    exact spells
  have word : (Value.int32 reply.copyCount).word ≠ 0xFFFFFFFF := copies
  have areas : (UInt32.ofNat reply.areaCapacityInfo.length).toNat =
      reply.areaCapacityInfo.length := UInt32.toNat_ofNat_of_lt reply.areasFit
  simp only [behindTable, writtenInfo, List.append_assoc]
  refine (carries_item blob (by decide)).mpr ?_
  iterate 2 refine (carries_item (.int32 _) (by decide)).mpr ?_
  rw [count_pluginsFlag]
  refine (carries_rows ?_ _ _).mpr ?_
  · intro name next back
    refine carries_item (.dllName ?_) (by decide)
    rw [List.length_take]
    omega
  iterate 2 refine (carries_item (.int32 _) (by decide)).mpr ?_
  rw [Value.word, areas]
  refine (carries_rows ?_ _ _).mpr ?_
  · intro row next back
    rw [writeCapacity, List.append_assoc]
    exact (carries_item (.int32 _) (by decide)).trans (carries_item (.int64 _) (by decide))
  refine (carries_item (.int32 _) (by decide)).mpr ?_
  rw [if_neg word, count_ofNat few]
  exact carries_entries _ _

/-- The list comes out of the packet, unless the table is too long for it and for what follows. -/
theorem decode_iff (few : reply.migratedInfo.length < 2147483648)
    (copies : reply.copyCount ≠ 0xFFFFFFFF) (more : List UInt8) :
    Carries ((responseHeartbeat.decode reply.body.length).run (reply.body ++ more)) more
        reply.migratedInfo ↔
      reply.hashTable.length ≤ tairMaxDataSize ∨
        reply.hashTable.length ≤ reply.lengthBehind + more.length := by
  have long : ¬reply.body.length < responseHeartbeat.least := by
    change ¬reply.body.length < 20
    simp only [body, List.length_append, writeInt32_length, writeInt64_length]
    omega
  have start : (responseHeartbeat.decode reply.body.length).run (reply.body ++ more) =
      responseHeartbeat.shape.layout.read.run (reply.body ++ more) := by
    rw [PacketClass.decode, PacketClass.read, if_neg long, Reader.run_map]
    cases responseHeartbeat.shape.layout.read.run (reply.body ++ more) <;> rfl
  have carries := behindTable_carries few copies more
  have behind := length_behindTable reply
  rw [start]
  simp only [body, List.append_assoc]
  iterate 4 refine (carries_item (.int32 _) (by decide)).trans ?_
  refine (carries_item (.int64 _) (by decide)).trans ?_
  iterate 2 refine (carries_item (.int32 _) (by decide)).trans ?_
  change Carries ((Layout.need (Value.int32 (UInt32.ofNat reply.hashTable.length)).count
    (tableBytes (.int32 (UInt32.ofNat reply.hashTable.length)) fun _ =>
      Packets.behindTable (.int32 reply.copyCount))).read.run _) _ _ ↔ _
  have count := count_ofNat reply.hashTableFits
  rw [tableBytes, count, writtenTable, Layout.read, Reader.run]
  by_cases small : reply.hashTable.length ≤ tairMaxDataSize
  · have enough : reply.hashTable.length ≤
        (reply.hashTable ++ (reply.behindTable ++ more)).length := by
      rw [List.length_append]
      omega
    rw [if_pos small, if_pos enough]
    refine iff_of_true ?_ (.inl small)
    by_cases some : 0 < reply.hashTable.length
    · rw [if_pos ⟨some, small⟩]
      exact (carries_item (.blob reply.hashTable) (by decide)).mpr carries
    · have empty := List.eq_nil_of_length_eq_zero (Nat.eq_zero_of_not_pos some)
      rw [if_neg (fun both => some both.1), empty]
      exact carries
  · have unread : ¬(0 < reply.hashTable.length ∧ reply.hashTable.length ≤ tairMaxDataSize) :=
      fun both => small both.2
    rw [if_neg small, if_neg unread, List.nil_append, List.length_append, behind]
    by_cases enough : reply.hashTable.length ≤ reply.lengthBehind + more.length
    · rw [if_pos enough]
      exact iff_of_true carries (.inr enough)
    · rw [if_neg enough]
      refine iff_of_false ?_ (not_or.mpr ⟨small, enough⟩)
      rintro ⟨fields, same, -⟩
      cases same

end HeartbeatReply

end Tair.Packets
