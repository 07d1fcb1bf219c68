/-
Layouts of packets: which fields a decoder reads, in which order and how. A layout spells a packet
when the bytes are the fields one after the other with the lengths that they announce.
-/

import Tair.Packets.Buffer

namespace Tair.Packets

open Tair.Library Tair.Library.Reader Tair.Common

/-- How a field is read: by a function of the buffer, by a macro, or by code of the packet. -/
inductive Atom where
  | int8
  | int16
  | int32
  | int64
  | checked16
  | checked32
  | checked64
  | double
  | entry
  /-- An entry whose length may be negative. -/
  | looseEntry
  | vector
  | record
  | text (capacity : Option Nat)
  /-- A text from which a `std::string` is made. -/
  | string
  | blob (size : Int)
  /-- `admin_packet_t::read_bytes`. -/
  | sized
  /-- The name of a plugin, in an array of 256 characters. -/
  | dllName
deriving DecidableEq, Repr

inductive Value where
  | int8 (value : UInt8)
  | int16 (value : UInt16)
  | int32 (value : UInt32)
  | int64 (value : UInt64)
  | double (bits : UInt64)
  | bytes (bytes : List UInt8)
  | vector (entries : List (List UInt8))
  | record (entry : DataEntry)
  | text (text : Option (List UInt8))
deriving DecidableEq, Repr

namespace Value

def byte : Value → UInt8
  | .int8 value => value
  | _ => 0

def short : Value → UInt16
  | .int16 value => value
  | _ => 0

def word : Value → UInt32
  | .int32 value => value
  | _ => 0

def recorded : Value → Option DataEntry
  | .record entry => some entry
  | _ => none

def data : Value → List UInt8
  | .bytes contents => contents
  | _ => []

def entries : Value → List (List UInt8)
  | .vector list => list
  | _ => []

def count (value : Value) : Nat := (signed value.word).toNat

end Value

/-- The length is compared with what is left, but not with zero. -/
def getLooseEntry : Reader (List UInt8) :=
  .need 4 do
    let length ← readInt32
    .need (signed length).toNat do
      let bytes ← readBytes (signed length)
      bytes.elim .refuse pure

def readSized : Reader (List UInt8) := do
  let length ← readInt32
  if length = 0 then pure []
  else do
    let bytes ← readBytes (signed length)
    bytes.elim .refuse pure

/-- The zero behind the name is stored in any case. -/
def readDllName : Reader (Option (List UInt8)) := do
  let length ← readInt32
  let bytes ← readBytes (signed length)
  if 256 ≤ signed length then .misuse .overflow
  else pure (bytes.map (·.takeWhile (· ≠ 0)))

/-- A `std::string` cannot be made of no text. -/
def readStdString : Reader (List UInt8) := do
  let text ← readString none
  text.elim (.misuse .aborted) pure

def Atom.read : Atom → Reader Value
  | .int8 => .int8 <$> readInt8
  | .int16 => .int16 <$> readInt16
  | .int32 => .int32 <$> readInt32
  | .int64 => .int64 <$> readInt64
  | .checked16 => .int16 <$> getInt16
  | .checked32 => .int32 <$> getInt32
  | .checked64 => .int64 <$> getInt64
  | .double => .double <$> getDouble
  | .entry => .bytes <$> getDataEntry
  | .looseEntry => .bytes <$> getLooseEntry
  | .vector => .vector <$> getDataVector
  | .record => .record <$> decodeEntry
  | .text capacity => .text <$> readString capacity
  | .string => (fun text => .text (some text)) <$> readStdString
  | .blob size => .text <$> readBytes size
  | .sized => .bytes <$> readSized
  | .dllName => .text <$> readDllName

inductive Name where
  | addCount | addscore | area | areaCapacityVersion | availableServerId | bucketCount | bucketId
  | bucketNo | capacity | cmd | code | configKey | configValue | configVersion | copyCount | count
  | data | dataNeedMove | dllName | downSlaveConfigServer | endAt | endTime | expire | expired
  | expiretime | field | fieldValues | fields | groupName | hashCode | hashTableData
  | hashTableSize | index | info | infoArea | initValue | key | keyCount | keys | limit | listLen
  | listSize | loopCount | maxCount | migratedInfo | modifiedTime | msg | oldPcode | origSize
  | packetId | param | pluginsFlag | pluginsVersion | proxyedKey | proxyedKeyCount
  | pullMigratedInfo | pushedNum | queryType | retNumber | retnum | retvalue | reverse | score
  | serverFlag | serverId | serverVersion | clientVersion | size | start | startTime | statInfo
  | statInfoSize | status | type | value | values | version | withscore
deriving DecidableEq, Repr

abbrev Fields : Type := List (Name × Value)

def Fields.change (fields : Fields) (name : Name) (change : Value → Value) : Fields :=
  fields.map fun field => if field.1 = name then (field.1, change field.2) else field

inductive Layout where
  | done
  | refuse
  | abort
  | need (count : Nat) (next : Layout)
  | item (atom : Atom) (name : Name) (next : Value → Layout)

namespace Layout

def read : Layout → Reader Fields
  | .done => pure []
  | .refuse => .refuse
  | .abort => .misuse .aborted
  | .need count next => .need count next.read
  | .item atom name next => do
    let value ← atom.read
    let others ← (next value).read
    pure ((name, value) :: others)

def fields : List (Atom × Name) → (Unit → Layout) → Layout
  | [], rest => rest ()
  | (atom, name) :: others, rest => .item atom name fun _ => fields others rest

def rows : Nat → List (Atom × Name) → (Unit → Layout) → Layout
  | 0, _, rest => rest ()
  | count + 1, row, rest => fields row fun _ => rows count row rest

def andThen : Layout → Layout → Layout
  | .done, after => after
  | .refuse, _ => .refuse
  | .abort, _ => .abort
  | .need count next, after => .need count (next.andThen after)
  | .item atom name next, after => .item atom name fun value => (next value).andThen after

end Layout

/-! ### Spellings -/

inductive Atom.Spells : Atom → Value → List UInt8 → Prop
  | int8 (value : UInt8) : Spells .int8 (.int8 value) (writeInt8 value)
  | int16 (value : UInt16) : Spells .int16 (.int16 value) (writeInt16 value)
  | int32 (value : UInt32) : Spells .int32 (.int32 value) (writeInt32 value)
  | int64 (value : UInt64) : Spells .int64 (.int64 value) (writeInt64 value)
  | checked16 (value : UInt16) : Spells .checked16 (.int16 value) (writeInt16 value)
  | checked32 (value : UInt32) : Spells .checked32 (.int32 value) (writeInt32 value)
  | checked64 (value : UInt64) : Spells .checked64 (.int64 value) (writeInt64 value)
  | double (bits : UInt64) : Spells .double (.double bits) (putDouble bits)
  | entry {bytes : List UInt8} (small : bytes.length < 2147483648) :
      Spells .entry (.bytes bytes) (putDataEntry bytes)
  | looseEntry {bytes : List UInt8} (small : bytes.length < 2147483648) :
      Spells .looseEntry (.bytes bytes) (putDataEntry bytes)
  | vector {entries : List (List UInt8)} (few : entries.length < 2147483648)
      (small : ∀ entry ∈ entries, entry.length < 2147483648) :
      Spells .vector (.vector (solid entries)) (putDataVector entries)
  /-- A negative number of entries is none. -/
  | noVector {count : UInt32} (negative : signed count < 0) :
      Spells .vector (.vector []) (writeInt32 count)
  | record (merged : UInt8) (area : UInt32) (serverFlag : UInt16) (info : ItemMeta)
      (valsize size : UInt32) {data : List UInt8} (length : data.length = (signed size).toNat) :
      Spells .record
        (.record
          { data, area := 0, hasMerged := decide (merged ≠ 0), hasMetaMerged := false,
            serverFlag := serverFlag.toNat,
            dataMeta := { info with valsize := BitVec.ofNat 24 valsize.toNat } })
        (spellEntry merged area serverFlag info valsize size data)
  | text (capacity : Option Nat) {bytes : List UInt8} (small : bytes.length < 2147483648) :
      Spells (.text capacity) (.text (storedText capacity bytes)) (putDataEntry bytes)
  | string {bytes : List UInt8} (present : bytes ≠ []) (small : bytes.length < 2147483648) :
      Spells .string (.text (some (cText bytes))) (putDataEntry bytes)
  | blob (bytes : List UInt8) : Spells (.blob bytes.length) (.text (some bytes)) bytes
  | sized {bytes : List UInt8} (small : bytes.length < 2147483648) :
      Spells .sized (.bytes bytes) (putDataEntry bytes)
  | dllName {bytes : List UInt8} (small : bytes.length < 256) :
      Spells .dllName (.text (some (bytes.takeWhile (· ≠ 0)))) (putDataEntry bytes)

/-- The bytes of a packet, and its fields if it is not refused behind its last byte. -/
inductive Layout.Spells : Layout → Option Fields → List UInt8 → Prop
  | done : Spells .done (some []) []
  | refuse : Spells .refuse none []
  | need {count : Nat} {next : Layout} {result : Option Fields} {bytes : List UInt8}
      (enough : count ≤ bytes.length) (spells : Spells next result bytes) :
      Spells (.need count next) result bytes
  | item {atom : Atom} {name : Name} {next : Value → Layout} {value : Value}
      {front back : List UInt8} {result : Option Fields} (first : atom.Spells value front)
      (others : Spells (next value) result back) :
      Spells (.item atom name next) (result.map ((name, value) :: ·)) (front ++ back)

section Runs

variable {more : List UInt8}

theorem run_getLooseEntry {bytes : List UInt8} (small : bytes.length < 2147483648) :
    getLooseEntry.run (putDataEntry bytes ++ more) = .done bytes more := by
  have enough : (bytes.length : Int).toNat ≤ (bytes ++ more).length := by
    rw [Int.toNat_natCast, List.length_append]
    exact Nat.le_add_right _ _
  rw [getLooseEntry, putDataEntry, List.append_assoc, need_written _ (writeInt32_length _),
    run_bind_of_done (run_readInt32 _), signed_ofNat small, Reader.run, if_pos enough,
    run_bind_of_done (run_readBytes rfl)]
  rfl

theorem run_readString (capacity : Option Nat) {bytes : List UInt8}
    (small : bytes.length < 2147483648) :
    (readString capacity).run (putDataEntry bytes ++ more) =
      .done (storedText capacity bytes) more := by
  have there : 4 ≤ (putDataEntry bytes ++ more).length := by
    rw [putDataEntry, List.length_append, List.length_append, writeInt32_length]
    omega
  rw [readString, Reader.run, decide_eq_true there, if_pos rfl, putDataEntry, List.append_assoc,
    run_bind_of_done (run_readInt32 _), signed_ofNat small, Reader.run, if_neg (by omega),
    Int.toNat_natCast, List.take_left, List.drop_left, run_done]

theorem run_readStdString {bytes : List UInt8} (here : bytes ≠ [])
    (small : bytes.length < 2147483648) :
    readStdString.run (putDataEntry bytes ++ more) = .done (cText bytes) more := by
  rw [readStdString, run_bind_of_done (run_readString none small), storedText,
    Option.elim_none, if_neg here]
  rfl

theorem run_readSized {bytes : List UInt8} (small : bytes.length < 2147483648) :
    readSized.run (putDataEntry bytes ++ more) = .done bytes more := by
  rw [readSized, putDataEntry, List.append_assoc, run_bind_of_done (run_readInt32 _)]
  cases bytes with
  | nil => rfl
  | cons byte others =>
    have here : UInt32.ofNat (byte :: others).length ≠ 0 := by
      intro zero
      have length := signed_ofNat small
      rw [zero] at length
      cases length
    rw [if_neg here, signed_ofNat small, run_bind_of_done (run_readBytes rfl)]
    rfl

theorem run_readDllName {bytes : List UInt8} (small : bytes.length < 256) :
    readDllName.run (putDataEntry bytes ++ more) =
      .done (some (bytes.takeWhile (· ≠ 0))) more := by
  rw [readDllName, putDataEntry, List.append_assoc, run_bind_of_done (run_readInt32 _),
    signed_ofNat (by omega), run_bind_of_done (run_readBytes rfl), if_neg (by omega)]
  rfl

theorem Atom.Spells.run {atom : Atom} {value : Value} {bytes : List UInt8}
    (spells : atom.Spells value bytes) : atom.read.run (bytes ++ more) = .done value more := by
  cases spells with
  | int8 value => rw [Atom.read, run_map, run_readInt8, Reading.map]
  | int16 value => rw [Atom.read, run_map, run_readInt16, Reading.map]
  | int32 value => rw [Atom.read, run_map, run_readInt32, Reading.map]
  | int64 value => rw [Atom.read, run_map, run_readInt64, Reading.map]
  | checked16 value =>
    rw [Atom.read, run_map, getInt16, need_written _ (writeInt16_length value), run_readInt16,
      Reading.map]
  | checked32 value =>
    rw [Atom.read, run_map, getInt32, need_written _ (writeInt32_length value), run_readInt32,
      Reading.map]
  | checked64 value =>
    rw [Atom.read, run_map, getInt64, need_written _ (writeInt64_length value), run_readInt64,
      Reading.map]
  | double bits => rw [Atom.read, run_map, run_getDouble, Reading.map]
  | entry small => rw [Atom.read, run_map, run_getDataEntry small, Reading.map]
  | looseEntry small => rw [Atom.read, run_map, run_getLooseEntry small, Reading.map]
  | vector few small => rw [Atom.read, run_map, run_getDataVector few small, Reading.map]
  | noVector negative =>
    rw [Atom.read, run_map, getDataVector, need_written _ (writeInt32_length _),
      run_bind_of_done (run_readInt32 _), Int.toNat_of_nonpos (by omega)]
    rfl
  | record merged area serverFlag info valsize size length =>
    rw [Atom.read, run_map, run_decodeEntry length, Reading.map]
  | text capacity small => rw [Atom.read, run_map, run_readString _ small, Reading.map]
  | string here small =>
    rw [Atom.read, run_map, run_readStdString here small, Reading.map]
  | blob bytes => rw [Atom.read, run_map, run_readBytes rfl, Reading.map]
  | sized small => rw [Atom.read, run_map, run_readSized small, Reading.map]
  | dllName small => rw [Atom.read, run_map, run_readDllName small, Reading.map]

theorem Layout.Spells.run {layout : Layout} {result : Option Fields} {bytes : List UInt8}
    (spells : layout.Spells result bytes) :
    layout.read.run (bytes ++ more) = result.elim (.refused more) (.done · more) := by
  induction spells with
  | done => rfl
  | refuse => rfl
  | @need count next result bytes enough spells ih =>
    have there : count ≤ (bytes ++ more).length := by
      rw [List.length_append]
      omega
    rw [Layout.read, Reader.run, if_pos there, ih]
  | @item atom name next value front back result first others ih =>
    rw [Layout.read, List.append_assoc, run_bind_of_done first.run, run_bind, ih]
    cases result with
    | none => rfl
    | some fields => rfl

end Runs

end Tair.Packets
