/-
The classes of packets as the factory makes them. A class is the code of its `decode`: the length
that it wants in the header, the fields that it reads, and what it does with them.
-/

import Tair.Packets.Layout

namespace Tair.Packets

open Tair.Library Tair.Common

inductive Ending where
  | accept
  | refuse
  | abort
deriving DecidableEq, Repr

def Ending.layout : Ending → Layout
  | .accept => .done
  | .refuse => .refuse
  | .abort => .abort

inductive Counting where
  | signed
  | unsigned
deriving DecidableEq, Repr

def Counting.rounds : Counting → UInt32 → Nat
  | .signed, word => (Packets.signed word).toNat
  | .unsigned, word => word.toNat

inductive Shape where
  | plain (items : List (Atom × Name)) (ending : Ending)
  /-- Fields, a number, and as many rows. -/
  | counted (items : List (Atom × Name)) (count : Atom × Name) (counting : Counting)
      (row : List (Atom × Name))
  | shaped (layout : Layout)

def Shape.layout : Shape → Layout
  | .plain items ending => .fields items fun _ => ending.layout
  | .counted items count counting row =>
    .fields items fun _ => .item count.1 count.2 fun value =>
      .rows (counting.rounds value.word) row fun _ => .done
  | .shaped layout => layout

structure PacketClass where
  least : Nat
  shape : Shape
  /-- What is assigned after the last read. -/
  finish : Fields → Fields := id

namespace PacketClass

def read (packetClass : PacketClass) (dataLen : Nat) : Reader Fields :=
  if dataLen < packetClass.least then .refuse else packetClass.shape.layout.read

/-- `decode`. -/
def decode (packetClass : PacketClass) (dataLen : Nat) : Reader Fields :=
  packetClass.finish <$> packetClass.read dataLen

/-- The bytes of a packet of this class. A packet that is too short for its class is refused with
all of its bytes before it, so only the empty one counts. -/
inductive Spells (packetClass : PacketClass) : Option Fields → List UInt8 → Prop
  | short (short : 0 < packetClass.least) : Spells packetClass none []
  | long {result : Option Fields} {bytes : List UInt8} (long : packetClass.least ≤ bytes.length)
      (spells : packetClass.shape.layout.Spells result bytes) :
      Spells packetClass (result.map packetClass.finish) bytes

theorem Spells.run {packetClass : PacketClass} {result : Option Fields} {bytes : List UInt8}
    (spells : packetClass.Spells result bytes) (more : List UInt8) :
    (packetClass.decode bytes.length).run (bytes ++ more) =
      result.elim (.refused more) (.done · more) := by
  rw [decode, Reader.run_map, read]
  cases spells with
  | short short =>
    rw [List.length_nil, if_pos short]
    rfl
  | @long result bytes long spells =>
    rw [if_neg (by omega), spells.run]
    cases result with
    | none => rfl
    | some fields => rfl

/-- The `decode` of a subclass that calls its base class and reads more. -/
def duplicate (base : PacketClass) (more : List (Atom × Name)) : PacketClass where
  least := base.least
  shape := .shaped (base.shape.layout.andThen (.fields more fun _ => .done))
  finish := base.finish

end PacketClass

def plain (least : Nat) (items : List (Atom × Name)) : PacketClass where
  least
  shape := .plain items .accept

section

variable (items : List (Atom × Name))

/-- Behind the header that `HEADER_VERIFY` reads. -/
def request : PacketClass :=
  plain 3 ((.int8, .serverFlag) :: (.int16, .area) :: items)

def update : PacketClass :=
  request ((.checked16, .version) :: (.checked32, .expire) :: items)

def reply : PacketClass :=
  plain 0 ((.checked32, .configVersion) :: (.checked32, .code) :: items)

def versioned : PacketClass :=
  plain 0 ((.checked32, .configVersion) :: (.checked16, .version) :: (.checked32, .code) :: items)

end

def counted (least : Nat) (items : List (Atom × Name)) (count : Atom × Name) (counting : Counting)
    (row : List (Atom × Name)) : PacketClass where
  least
  shape := .counted items count counting row

def shaped (least : Nat) (layout : Layout) : PacketClass where
  least
  shape := .shaped layout

def ends (ending : Ending) : PacketClass where
  least := 0
  shape := .plain [] ending

/-- The members of a `_dup` class. -/
def ids : List (Atom × Name) := [(.int32, .packetId), (.int32, .bucketId)]

/-! ### Parts that several classes share -/

def tableBytes (size : Value) (rest : Unit → Layout) : Layout :=
  if 0 < size.count ∧ size.count ≤ tairMaxDataSize then
    .fields [(.blob size.count, .hashTableData)] rest
  else rest ()

/-- `set_hash_table` makes no room for a table that is too large, and then nothing is read. -/
def hashTable (rest : Unit → Layout) : Layout :=
  .item .int32 .hashTableSize fun size => tableBytes size rest

def boundedHashTable (rest : Unit → Layout) : Layout :=
  .item .int32 .hashTableSize fun size => .need size.count (tableBytes size rest)

def areaCapacities (rest : Unit → Layout) : Layout :=
  .fields [(.int32, .areaCapacityVersion)] fun _ => .item .int32 .size fun size =>
    .rows size.word.toNat [(.int32, .infoArea), (.int64, .capacity)] rest

def hasHashCode : UInt8 := 0x80

def Value.clearHashCode : Value → Value
  | .int8 flag => .int8 (flag &&& 0x7F)
  | other => other

def Value.setVersion (version : UInt16) : Value → Value
  | .record entry => .record { entry with dataMeta := { entry.dataMeta with version } }
  | other => other

/-- The key gets the version of the request, and the flag of the hash code is cleared. -/
def finishPut (fields : Fields) : Fields :=
  (fields.change .serverFlag Value.clearHashCode).change .key
    (Value.setVersion ((fields.lookup .version).elim 0 Value.short))

def requestPut : PacketClass where
  least := 3
  shape := .shaped
    (.item .int8 .serverFlag fun flag =>
      .fields
        [(.int16, .area), (.checked16, .version), (.checked32, .expired), (.record, .key),
         (.record, .data)] fun _ =>
        if flag.byte &&& hasHashCode = 0 then .done
        else .fields [(.checked32, .hashCode)] fun _ => .done)
  finish := finishPut

/-- `data_entry::operator<`. An entry without bytes is not less than any other, nor any other less
than it. -/
def entryLess (entry other : DataEntry) : Bool :=
  decide (entry.data ≠ [] ∧ other.data ≠ []) &&
    decide (entry.data.map UInt8.toNat < other.data.map UInt8.toNat)

/-- A set of entries, in the order of `data_entry_comparator`. -/
def insertKey (key : DataEntry) : List DataEntry → List DataEntry
  | [] => [key]
  | least :: others =>
    if entryLess key least then key :: least :: others
    else if entryLess least key then least :: insertKey key others
    else least :: others

def keySet (keys : List DataEntry) : List DataEntry :=
  keys.foldl (fun kept key => insertKey key kept) []

def keysOf (fields : Fields) : List DataEntry :=
  (fields.filter (·.1 = .key)).filterMap (·.2.recorded)

/-- `key_list` is a set. -/
def finishGet (fields : Fields) : Fields :=
  fields.filter (·.1 ≠ .key) ++ (keySet (keysOf fields)).map fun key => (.key, .record key)

def requestGet : PacketClass where
  least := 7
  shape := .counted [(.int8, .serverFlag), (.int16, .area)] (.int32, .keyCount) .unsigned
    [(.record, .key)]
  finish := finishGet

/-- The rows of `admin_packet_t`, whose keys must not be empty. -/
def adminRows : Nat → Layout
  | 0 => .done
  | count + 1 =>
    .item .sized .key fun key =>
      if key = .bytes [] then .refuse else .item .sized .value fun _ => adminRows count

def adminPacket : PacketClass :=
  shaped 0
    (.item .int32 .count fun count =>
      if count.word = 0 ∨ 50 < count.word then .refuse else adminRows count.word.toNat)

/-! ### The other classes -/

def requestOpCmd : PacketClass :=
  counted 0 [(.int32, .cmd)] (.int32, .count) .signed [(.string, .param)]

def responseOpCmd : PacketClass :=
  shaped 0
    (.fields [(.int32, .code)] fun _ => .item .int32 .count fun count =>
      if signed count.word < 0 then .refuse
      else .rows count.count [(.string, .info)] fun _ => .done)

def requestPutnx : PacketClass := requestPut

def requestQueryInfo : PacketClass :=
  plain 12 [(.int32, .queryType), (.text none, .groupName), (.int64, .serverId)]

def requestRemove : PacketClass := requestGet

def requestRemoveArea : PacketClass := plain 4 [(.int32, .area)]

def requestLazyRemoveArea : PacketClass := plain 4 [(.int32, .area)]

def requestDumpArea : PacketClass := request []

def requestLoadArea : PacketClass := request []

def requestExists : PacketClass := request [(.entry, .key)]

def requestHexists : PacketClass := request [(.entry, .key), (.entry, .field)]

def requestPing : PacketClass := plain 8 [(.int32, .configVersion), (.int32, .value)]

def requestDump : PacketClass :=
  counted 0 [] (.int32, .size) .signed
    [(.int32, .startTime), (.int32, .endTime), (.int32, .infoArea)]

def requestHeartbeat : PacketClass :=
  shaped 12
    (.fields
      [(.int8, .serverFlag), (.int64, .serverId), (.int32, .loopCount), (.int32, .configVersion),
       (.int32, .status), (.int8, .pullMigratedInfo)] fun _ =>
      .item .int32 .size fun size => .rows size.word.toNat [(.int32, .bucketNo)] fun _ =>
        .fields [(.int32, .pluginsVersion)] fun _ => areaCapacities fun _ =>
          .item .int32 .statInfoSize fun stats =>
            if 0 < stats.count then .fields [(.blob stats.count, .statInfo)] fun _ => .done
            else .done)

def requestIncDec : PacketClass :=
  plain 13
    [(.int8, .serverFlag), (.int16, .area), (.int32, .addCount), (.int32, .initValue),
     (.int32, .expired), (.record, .key)]

def responseReturn : PacketClass :=
  plain 12 [(.int32, .configVersion), (.int32, .code), (.text (some 128), .msg)]

def responseGet : PacketClass :=
  shaped 8
    (.fields [(.int32, .configVersion), (.int32, .code)] fun _ =>
      .item .int32 .keyCount fun count =>
        .rows count.word.toNat [(.record, .key), (.record, .data)] fun _ =>
          if 1 < count.word then
            .item .int32 .proxyedKeyCount fun proxyed =>
              .rows proxyed.count [(.record, .proxyedKey)] fun _ => .done
          else .done)

def requestSadd : PacketClass := update [(.entry, .key), (.entry, .value)]

def requestGetset : PacketClass := requestSadd

def responseHget : PacketClass := versioned [(.entry, .value)]

def responseGetset : PacketClass := responseHget

def responseQueryInfo : PacketClass :=
  counted 4 [] (.int32, .size) .unsigned [(.text none, .key), (.text none, .value)]

def responseHeartbeat : PacketClass :=
  shaped 20
    (.fields [(.int32, .clientVersion), (.int32, .serverVersion), (.int32, .bucketCount)] fun _ =>
      .item .int32 .copyCount fun copies =>
        .fields [(.int64, .downSlaveConfigServer), (.int32, .dataNeedMove)] fun _ =>
          boundedHashTable fun _ => .fields [(.blob 64, .groupName)] fun _ =>
            .item .int32 .pluginsFlag fun plugins => .fields [(.int32, .pluginsVersion)] fun _ =>
              .rows plugins.count [(.dllName, .dllName)] fun _ => areaCapacities fun _ =>
                .item .int32 .size fun migrated =>
                  if copies.word = 0xFFFFFFFF then .abort
                  else .rows migrated.count [(.int64, .migratedInfo)] fun _ => .done)

def responseIncDec : PacketClass := requestPing

def requestGetGroup : PacketClass :=
  plain 8 [(.int32, .configVersion), (.text (some 64), .groupName)]

def requestGetServerTable : PacketClass := requestGetGroup

def requestConfHeartbeart : PacketClass := plain 12 [(.int64, .serverId), (.int32, .loopCount)]

def requestSetMaster : PacketClass := requestPing

def requestGroupNames : PacketClass := requestPing

def responseGetGroup : PacketClass :=
  shaped 12
    (.fields [(.int32, .bucketCount), (.int32, .copyCount), (.int32, .configVersion)] fun _ =>
      .item .int32 .size fun size =>
        .rows size.count [(.text (some 64), .configKey), (.text (some 1024), .configValue)] fun _ =>
          .need 4 (hashTable fun _ => .item .int32 .size fun servers =>
            .rows servers.count [(.int64, .availableServerId)] fun _ => .done))

def responseGetServerTable : PacketClass :=
  shaped 20
    (.fields [(.int32, .modifiedTime), (.int32, .type), (.text (some 64), .groupName)] fun _ =>
      .item .int32 .size fun size => .fields [(.int32, .origSize)] fun _ =>
        .need size.count
          (if 0 < size.count then .fields [(.blob size.count, .data)] fun _ => .done else .done))

def responseGroupNames : PacketClass :=
  counted 8 [(.int32, .status)] (.int32, .count) .signed [(.text (some 64), .groupName)]

def responseDuplicate : PacketClass :=
  plain 0
    [(.int32, .packetId), (.int64, .serverId), (.int32, .bucketId), (.int32, .retNumber),
     (.int32, .listSize)]

def requestMigrateFinish : PacketClass :=
  plain 8 [(.int32, .version), (.int64, .serverId), (.int32, .bucketNo)]

def requestDataServerCtrl : PacketClass := plain 10 [(.int64, .serverId), (.int16, .cmd)]

def requestGetMigrateMachine : PacketClass := plain 8 [(.int64, .serverId)]

def responseGetMigrateMachine : PacketClass :=
  counted 4 [] (.int32, .size) .signed [(.int64, .serverId), (.int32, .count)]

def requestExpire : PacketClass := request [(.checked32, .expiretime), (.entry, .key)]

def responseExpire : PacketClass := ends .abort

def requestExpireat : PacketClass := request [(.checked32, .expiretime), (.entry, .key)]

def responseExpireat : PacketClass := ends .abort

def requestPersist : PacketClass := request [(.entry, .key)]

def responsePersist : PacketClass := ends .abort

def requestAddfilter : PacketClass := request [(.entry, .key), (.entry, .field), (.entry, .value)]

def requestRemovefilter : PacketClass := requestAddfilter

def requestLlen : PacketClass := request [(.entry, .key)]

def responseLlen : PacketClass := reply [(.checked64, .retnum)]

def requestLrpop : PacketClass := update [(.checked32, .count), (.entry, .key)]

def responseLrpop : PacketClass := versioned [(.vector, .values)]

def requestLrpush : PacketClass := update [(.entry, .key), (.vector, .values)]

def responseLrpush : PacketClass := reply [(.checked32, .pushedNum), (.checked32, .listLen)]

def requestLrpushLimit : PacketClass :=
  update [(.checked32, .maxCount), (.entry, .key), (.vector, .values)]

def requestLindex : PacketClass := request [(.checked32, .index), (.entry, .key)]

def responseLindex : PacketClass := versioned [(.entry, .value)]

def requestLtrim : PacketClass :=
  update [(.checked32, .start), (.checked32, .endAt), (.entry, .key)]

def responseLtrim : PacketClass := reply []

def requestLrange : PacketClass :=
  request [(.checked32, .start), (.checked32, .endAt), (.entry, .key)]

def responseLrange : PacketClass := versioned [(.vector, .values)]

def requestLrem : PacketClass := update [(.checked32, .count), (.entry, .key), (.entry, .value)]

def responseLrem : PacketClass where
  least := 0
  shape := .plain [(.checked32, .configVersion), (.checked32, .code), (.checked64, .retnum)] .refuse

def requestLset : PacketClass := update [(.checked32, .index), (.entry, .key), (.entry, .value)]

def responseHset : PacketClass := reply []

def responseLset : PacketClass := responseHset

def requestHgetall : PacketClass := request [(.entry, .key)]

def responseHgetall : PacketClass := versioned [(.vector, .values)]

def requestHincrby : PacketClass := update [(.entry, .key), (.entry, .field), (.checked64, .value)]

def responseHincrby : PacketClass := reply [(.checked64, .retnum)]

def requestHmset : PacketClass := update [(.entry, .key), (.vector, .fieldValues)]

def responseHmset : PacketClass := reply [(.checked32, .retvalue)]

def requestHset : PacketClass := update [(.entry, .key), (.entry, .field), (.entry, .value)]

def requestHsetnx : PacketClass := update [(.entry, .key), (.entry, .field), (.entry, .value)]

def responseHsetnx : PacketClass := ends .abort

def requestHget : PacketClass := request [(.entry, .key), (.entry, .field)]

def requestHmget : PacketClass := request [(.entry, .key), (.vector, .fields)]

def responseHmget : PacketClass := versioned [(.vector, .values)]

def requestHdel : PacketClass := update [(.entry, .key), (.entry, .field)]

def responseHdel : PacketClass := reply []

def requestHvals : PacketClass :=
  plain 7 [(.int8, .serverFlag), (.int16, .area), (.looseEntry, .key)]

def responseHvals : PacketClass := ends .refuse

def requestHkeys : PacketClass :=
  plain 7 [(.int8, .serverFlag), (.int16, .area), (.looseEntry, .key)]

def responseHkeys : PacketClass := ends .refuse

def requestHlen : PacketClass := request [(.entry, .key)]

def responseHlen : PacketClass := ends .abort

def requestScard : PacketClass := request [(.entry, .key)]

def responseScard : PacketClass := ends .abort

def requestSmembers : PacketClass := request [(.entry, .key)]

def responseSmembers : PacketClass := versioned [(.vector, .values)]

def responseSadd : PacketClass := reply []

def requestSpop : PacketClass := update [(.entry, .key)]

def responseSpop : PacketClass := ends .abort

def requestSrem : PacketClass := update [(.entry, .key), (.entry, .value)]

def responseSrem : PacketClass := reply []

def requestSaddMulti : PacketClass :=
  counted 3 [(.int8, .serverFlag), (.int16, .area), (.checked32, .expire)]
    (.checked32, .size) .signed [(.entry, .key), (.vector, .values)]

def requestSremMulti : PacketClass := requestSaddMulti

def requestSmembersMulti : PacketClass := request [(.vector, .keys)]

def responseSmembersMulti : PacketClass :=
  counted 0 [(.checked32, .configVersion), (.checked32, .code)]
    (.checked32, .size) .signed [(.checked16, .version), (.vector, .values)]

def requestZscore : PacketClass := request [(.entry, .key), (.entry, .value)]

def responseZscore : PacketClass := ends .abort

def requestZrange : PacketClass :=
  request [(.checked32, .start), (.checked32, .endAt), (.checked32, .withscore), (.entry, .key)]

def responseZrange : PacketClass := versioned [(.vector, .values)]

def responseZrangewithscore : PacketClass :=
  counted 0
    [(.checked32, .configVersion), (.checked16, .version), (.checked32, .code)]
    (.checked32, .size) .unsigned [(.entry, .value), (.double, .score)]

def requestZrevrange : PacketClass :=
  request [(.checked32, .start), (.checked32, .endAt), (.checked32, .withscore), (.entry, .key)]

def responseZrevrange : PacketClass := ends .refuse

def responseZrevrangewithscore : PacketClass := ends .refuse

def requestZrangebyscore : PacketClass :=
  request [(.double, .start), (.double, .endAt), (.entry, .key)]

def responseZrangebyscore : PacketClass := ends .refuse

def requestGenericZrangebyscore : PacketClass :=
  request
    [(.double, .start), (.double, .endAt), (.entry, .key), (.checked32, .reverse),
     (.checked32, .limit), (.checked32, .withscore)]

def responseGenericZrangebyscore : PacketClass :=
  shaped 0
    (.fields [(.checked32, .configVersion), (.checked16, .version), (.checked32, .code)] fun _ =>
      .item .checked32 .size fun scores =>
        if scores.word = 0 then .fields [(.vector, .values)] fun _ => .done
        else .item .checked32 .count fun count =>
          .rows count.word.toNat [(.entry, .value), (.double, .score)] fun _ => .done)

def requestZadd : PacketClass := update [(.double, .score), (.entry, .key), (.entry, .value)]

def responseZadd : PacketClass := reply []

def requestZrank : PacketClass := request [(.entry, .key), (.entry, .value)]

def responseZrank : PacketClass := ends .abort

def requestZrevrank : PacketClass := request [(.entry, .key), (.entry, .value)]

def responseZrevrank : PacketClass := ends .abort

def requestZcount : PacketClass := request [(.double, .start), (.double, .endAt), (.entry, .key)]

def responseZcount : PacketClass := ends .refuse

def requestZincrby : PacketClass := update [(.entry, .key), (.entry, .value), (.double, .addscore)]

def responseZincrby : PacketClass := reply [(.double, .retnum)]

def requestZcard : PacketClass := request [(.entry, .key)]

def responseZcard : PacketClass := reply [(.checked64, .retnum)]

def requestZrem : PacketClass := update [(.entry, .key), (.entry, .value)]

def responseZrem : PacketClass := reply []

def requestZremrangebyrank : PacketClass :=
  update [(.checked32, .start), (.checked32, .endAt), (.entry, .key)]

def responseZremrangebyrank : PacketClass := reply [(.checked64, .retnum)]

def requestZremrangebyscore : PacketClass :=
  update [(.double, .start), (.double, .endAt), (.entry, .key)]

def responseZremrangebyscore : PacketClass := reply [(.checked64, .retnum)]

def requestTtl : PacketClass := request [(.entry, .key)]

def responseTtl : PacketClass := ends .abort

def requestType : PacketClass := request [(.entry, .key)]

def responseType : PacketClass := ends .abort

def requestPutDup : PacketClass := requestPut.duplicate ids

def requestPutnxDup : PacketClass := requestPutnx.duplicate ids

def requestRemoveDup : PacketClass := requestRemove.duplicate ids

def requestLrpushDup : PacketClass := requestLrpush.duplicate ((.int32, .oldPcode) :: ids)

def requestLrpopDup : PacketClass := requestLrpop.duplicate ((.int32, .oldPcode) :: ids)

def requestLtrimDup : PacketClass := requestLtrim.duplicate ids

def requestLremDup : PacketClass := requestLrem.duplicate ids

def requestLsetDup : PacketClass := requestLset.duplicate ids

def requestHmsetDup : PacketClass := requestHmset.duplicate ids

def requestHsetDup : PacketClass := requestHset.duplicate ids

def requestHsetnxDup : PacketClass := requestHsetnx.duplicate ids

def requestHdelDup : PacketClass := requestHdel.duplicate ids

def requestSpopDup : PacketClass := requestSpop.duplicate ids

def requestSremDup : PacketClass := requestSrem.duplicate ids

def requestSaddDup : PacketClass := requestSadd.duplicate ids

def requestSaddMultiDup : PacketClass := requestSaddMulti.duplicate ids

def requestSremMultiDup : PacketClass := requestSremMulti.duplicate ids

def requestZaddDup : PacketClass := requestZadd.duplicate ids

def requestZremDup : PacketClass := requestZrem.duplicate ids

def requestZremrangebyrankDup : PacketClass := requestZremrangebyrank.duplicate ids

def requestZremrangebyscoreDup : PacketClass := requestZremrangebyscore.duplicate ids

/-! ### The factory -/

/-- `tair_packet_factory::createPacket`. -/
def factory : List (Nat × PacketClass) :=
  [(16, requestOpCmd), (17, responseOpCmd), (1, requestPut), (2149, requestPutnx), (2, requestGet),
   (1009, requestQueryInfo), (3, requestRemove), (4, requestRemoveArea),
   (2152, requestLazyRemoveArea), (2164, requestDumpArea), (2165, requestLoadArea),
   (2153, requestExists), (2161, requestHexists), (6, requestPing), (7, requestDump),
   (9, requestHeartbeat), (11, requestIncDec), (101, responseReturn), (102, responseGet),
   (2155, requestGetset), (2255, responseGetset), (1106, responseQueryInfo),
   (104, responseHeartbeat), (105, responseIncDec), (1002, requestGetGroup),
   (1003, requestGetServerTable), (1004, requestConfHeartbeart), (1005, requestSetMaster),
   (1006, requestGroupNames), (1102, responseGetGroup), (1103, responseGetServerTable),
   (1104, responseGroupNames), (1301, responseDuplicate), (1201, requestMigrateFinish),
   (1500, requestDataServerCtrl), (1501, requestGetMigrateMachine),
   (1302, responseGetMigrateMachine), (2127, requestExpire), (2227, responseExpire),
   (2131, requestExpireat), (2231, responseExpireat), (2132, requestPersist),
   (2232, responsePersist), (2162, requestAddfilter), (2163, requestRemovefilter),
   (2133, requestLlen), (2233, responseLlen), (2100, requestLrpop), (2102, requestLrpop),
   (2200, responseLrpop), (2202, responseLrpop), (2101, requestLrpush), (2103, requestLrpush),
   (2201, responseLrpush), (2203, responseLrpush), (2104, requestLrpush), (2105, requestLrpush),
   (2204, responseLrpush), (2205, responseLrpush), (2157, requestLrpushLimit),
   (2158, requestLrpushLimit), (2159, requestLrpushLimit), (2160, requestLrpushLimit),
   (2106, requestLindex), (2206, responseLindex), (2128, requestLtrim), (2228, responseLtrim),
   (2130, requestLrange), (2230, responseLrange), (2129, requestLrem), (2229, responseLrem),
   (2166, requestLset), (2266, responseLset), (2107, requestHgetall), (2207, responseHgetall),
   (2108, requestHincrby), (2208, responseHincrby), (2109, requestHmset), (2209, responseHmset),
   (2110, requestHset), (2210, responseHset), (2111, requestHsetnx), (2211, responseHsetnx),
   (2112, requestHget), (2212, responseHget), (2113, requestHmget), (2213, responseHmget),
   (2115, requestHdel), (2215, responseHdel), (2114, requestHvals), (2214, responseHvals),
   (2156, requestHkeys), (2256, responseHkeys), (2136, requestHlen), (2236, responseHlen),
   (2116, requestScard), (2216, responseScard), (2117, requestSmembers), (2217, responseSmembers),
   (2118, requestSadd), (2218, responseSadd), (2119, requestSpop), (2219, responseSpop),
   (2145, requestSrem), (2245, responseSrem), (2146, requestSaddMulti), (2147, requestSremMulti),
   (2148, requestSmembersMulti), (2248, responseSmembersMulti), (2122, requestZscore),
   (2222, responseZscore), (2120, requestZrange), (2220, responseZrange),
   (2243, responseZrangewithscore), (2121, requestZrevrange), (2221, responseZrevrange),
   (2244, responseZrevrangewithscore), (2123, requestZrangebyscore), (2223, responseZrangebyscore),
   (2151, requestGenericZrangebyscore), (2251, responseGenericZrangebyscore), (2124, requestZadd),
   (2224, responseZadd), (2125, requestZrank), (2225, responseZrank), (2140, requestZrevrank),
   (2240, responseZrevrank), (2141, requestZcount), (2241, responseZcount), (2142, requestZincrby),
   (2242, responseZincrby), (2126, requestZcard), (2226, responseZcard), (2137, requestZrem),
   (2237, responseZrem), (2138, requestZremrangebyrank), (2238, responseZremrangebyrank),
   (2139, requestZremrangebyscore), (2239, responseZremrangebyscore), (2134, requestTtl),
   (2234, responseTtl), (2135, requestType), (2235, responseType), (3000, adminPacket),
   (4000, requestPutDup), (4001, requestPutnxDup), (4002, requestRemoveDup),
   (4019, requestLrpushDup), (4021, requestLrpushDup), (4020, requestLrpushDup),
   (4022, requestLrpushDup), (4027, requestLrpopDup), (4028, requestLrpopDup),
   (4003, requestLtrimDup), (4004, requestLremDup), (4005, requestLsetDup), (4006, requestHmsetDup),
   (4007, requestHsetDup), (4008, requestHsetnxDup), (4009, requestHdelDup), (4010, requestSpopDup),
   (4011, requestSremDup), (4013, requestSaddDup), (4014, requestSaddMultiDup),
   (4012, requestSremMultiDup), (4015, requestZaddDup), (4016, requestZremDup),
   (4017, requestZremrangebyrankDup), (4018, requestZremrangebyscoreDup)]

def createPacket (pcode : Nat) : Option PacketClass := factory.lookup pcode

end Tair.Packets
