/-
The buffer of a connection and the pieces of packets. The reads of the buffer itself look at
nothing; the macros of the packets look at how many bytes are left, except for the entries of a
vector. A vector leaves out its empty entries when it is read.
-/

import Tair.Common.DataEntry
import Tair.Library.Reader

namespace Tair.Packets

open Tair.Library Tair.Library.Reader Tair.Common

/-! ### Reads and writes of the buffer -/

def readInt8 : Reader UInt8 := .take 1 fun bytes => .done (UInt8.ofNat (beValue bytes))

def readInt16 : Reader UInt16 := .take 2 fun bytes => .done (UInt16.ofNat (beValue bytes))

def readInt32 : Reader UInt32 := .take 4 fun bytes => .done (UInt32.ofNat (beValue bytes))

def readInt64 : Reader UInt64 := .take 8 fun bytes => .done (UInt64.ofNat (beValue bytes))

def readBytes (count : Int) : Reader (Option (List UInt8)) := .copy count .done

/-- A word as an `int`. -/
def signed (word : UInt32) : Int :=
  if word.toNat < 2147483648 then word.toNat else (word.toNat : Int) - 4294967296

/-- The text in an array of characters whose last one was set to zero. -/
def cText (bytes : List UInt8) : List UInt8 := bytes.dropLast.takeWhile (· ≠ 0)

/-- Nothing is stored when there are no bytes, or no room for them. -/
def storedText (capacity : Option Nat) (bytes : List UInt8) : Option (List UInt8) :=
  if capacity.elim bytes bytes.take = [] then none
  else some (cText (capacity.elim bytes bytes.take))

/-- `readString` into an array of this size, or into memory of its own. The length is cut to what
is left. -/
def readString (capacity : Option Nat) : Reader (Option (List UInt8)) :=
  .probe 4 fun there =>
    if there then do
      let length ← readInt32
      .upTo (signed length) fun bytes => .done (storedText capacity bytes)
    else .done none

def writeInt8 (value : UInt8) : List UInt8 := beBytes 1 value.toNat

def writeInt16 (value : UInt16) : List UInt8 := beBytes 2 value.toNat

def writeInt32 (value : UInt32) : List UInt8 := beBytes 4 value.toNat

def writeInt64 (value : UInt64) : List UInt8 := beBytes 8 value.toNat

@[simp]
theorem writeInt8_length (value : UInt8) : (writeInt8 value).length = 1 := beBytes_length _ _

@[simp]
theorem writeInt16_length (value : UInt16) : (writeInt16 value).length = 2 := beBytes_length _ _

@[simp]
theorem writeInt32_length (value : UInt32) : (writeInt32 value).length = 4 := beBytes_length _ _

@[simp]
theorem writeInt64_length (value : UInt64) : (writeInt64 value).length = 8 := beBytes_length _ _

/-! ### Macros -/

def getInt16 : Reader UInt16 := .need 2 readInt16

def getInt32 : Reader UInt32 := .need 4 readInt32

def getInt64 : Reader UInt64 := .need 8 readInt64

/-- The eight bytes of a `double`, as they lie in memory. -/
def getDouble : Reader UInt64 :=
  .need 8 (.take 8 fun bytes => .done (UInt64.ofNat (leValue bytes)))

def putDouble (value : UInt64) : List UInt8 := leBytes 8 value.toNat

/-- `GETKEY_FROM_DATAENTRY`, and `GETKEY_FROM_PDATAENTRY`. -/
def getDataEntry : Reader (List UInt8) :=
  .need 4 do
    let length ← readInt32
    if signed length < 0 then .refuse
    else
      .need (signed length).toNat do
        let bytes ← readBytes (signed length)
        bytes.elim .refuse pure

def putDataEntry (bytes : List UInt8) : List UInt8 :=
  writeInt32 (UInt32.ofNat bytes.length) ++ bytes

/-- The entries of a vector. The length is not compared with what is left, and an entry without
bytes is passed over. -/
def getEntries : Nat → Reader (List (List UInt8))
  | 0 => pure []
  | count + 1 =>
    .need 4 do
      let length ← readInt32
      if signed length = 0 then getEntries count
      else do
        let bytes ← readBytes (signed length)
        bytes.elim .refuse fun bytes => (bytes :: ·) <$> getEntries count

/-- `GETKEY_FROM_DATAVECTOR`. -/
def getDataVector : Reader (List (List UInt8)) :=
  .need 4 do
    let count ← readInt32
    getEntries (signed count).toNat

/-- `PUT_DATAVECTOR_TO_BUFFER`. -/
def putDataVector (entries : List (List UInt8)) : List UInt8 :=
  writeInt32 (UInt32.ofNat entries.length) ++ entries.flatMap putDataEntry

/-! ### Entries with their meta data -/

/-- `item_meta_info::decode`. -/
def decodeMeta : Reader ItemMeta := do
  let magic ← readInt16
  let checksum ← readInt16
  let keysize ← readInt16
  let version ← readInt16
  let padsize ← readInt32
  let valsize ← readInt32
  let flag ← readInt8
  let cdate ← readInt32
  let mdate ← readInt32
  let edate ← readInt32
  pure
    { magic, checksum, keysize, version, padsize, valsize := BitVec.ofNat 24 valsize.toNat,
      flag, cdate, mdate, edate }

/-- The words of `item_meta_info::encode`. The size of the value has only 24 bits of its own. -/
def spellMeta (info : ItemMeta) (valsize : UInt32) : List UInt8 :=
  writeInt16 info.magic ++ (writeInt16 info.checksum ++ (writeInt16 info.keysize ++
    (writeInt16 info.version ++ (writeInt32 info.padsize ++ (writeInt32 valsize ++
      (writeInt8 info.flag ++ (writeInt32 info.cdate ++ (writeInt32 info.mdate ++
        writeInt32 info.edate))))))))

/-- The data of an entry that announces this many bytes. Bytes that are missing stay zero. -/
def decodeData (size : Int) : Reader (List UInt8) :=
  if 0 < size then do
    let bytes ← readBytes size
    pure (bytes.getD (List.replicate size.toNat 0))
  else pure []

/-- `data_entry::decode`. The area that was sent is assigned to itself. -/
def decodeEntry : Reader DataEntry := do
  let merged ← readInt8
  let _area ← readInt32
  let serverFlag ← readInt16
  let dataMeta ← decodeMeta
  let size ← readInt32
  let data ← decodeData (signed size)
  pure
    { data, area := 0, hasMerged := decide (merged ≠ 0), hasMetaMerged := false,
      serverFlag := serverFlag.toNat, dataMeta }

def spellEntry (merged : UInt8) (area : UInt32) (serverFlag : UInt16) (info : ItemMeta)
    (valsize size : UInt32) (data : List UInt8) : List UInt8 :=
  writeInt8 merged ++ (writeInt32 area ++ (writeInt16 serverFlag ++ (spellMeta info valsize ++
    (writeInt32 size ++ data))))

/-- `data_entry::encode`. -/
def encodeEntry (entry : DataEntry) : List UInt8 :=
  spellEntry (if entry.hasMerged then 1 else 0) (UInt32.ofNat entry.area)
    (UInt16.ofNat entry.serverFlag) entry.dataMeta (UInt32.ofNat entry.dataMeta.valsize.toNat)
    (UInt32.ofNat entry.data.length) entry.data

/-! ### What is written is read back -/

section Runs

variable {α : Type} {rest : List UInt8}

theorem take_written {count : Nat} {wrote : List UInt8} (next : List UInt8 → Reader α)
    (length : wrote.length = count) :
    (Reader.take count next).run (wrote ++ rest) = (next wrote).run rest := by
  have enough : count ≤ (wrote ++ rest).length := by
    rw [List.length_append]
    omega
  rw [Reader.run, if_pos enough, ← length, List.take_left, List.drop_left]

theorem need_written {count : Nat} {wrote : List UInt8} (next : Reader α)
    (length : wrote.length = count) :
    (Reader.need count next).run (wrote ++ rest) = next.run (wrote ++ rest) := by
  have enough : count ≤ (wrote ++ rest).length := by
    rw [List.length_append]
    omega
  rw [Reader.run, if_pos enough]

theorem run_readInt8 (value : UInt8) :
    readInt8.run (writeInt8 value ++ rest) = .done value rest := by
  rw [readInt8, writeInt8, take_written _ (beBytes_length _ _), run_done,
    beValue_beBytes_of_lt value.toNat_lt, UInt8.ofNat_toNat]

theorem run_readInt16 (value : UInt16) :
    readInt16.run (writeInt16 value ++ rest) = .done value rest := by
  rw [readInt16, writeInt16, take_written _ (beBytes_length _ _), run_done,
    beValue_beBytes_of_lt value.toNat_lt, UInt16.ofNat_toNat]

theorem run_readInt32 (value : UInt32) :
    readInt32.run (writeInt32 value ++ rest) = .done value rest := by
  rw [readInt32, writeInt32, take_written _ (beBytes_length _ _), run_done,
    beValue_beBytes_of_lt value.toNat_lt, UInt32.ofNat_toNat]

theorem run_readInt64 (value : UInt64) :
    readInt64.run (writeInt64 value ++ rest) = .done value rest := by
  rw [readInt64, writeInt64, take_written _ (beBytes_length _ _), run_done,
    beValue_beBytes_of_lt value.toNat_lt, UInt64.ofNat_toNat]

theorem run_getDouble (value : UInt64) :
    getDouble.run (putDouble value ++ rest) = .done value rest := by
  rw [getDouble, putDouble, need_written _ (leBytes_length _ _),
    take_written _ (leBytes_length _ _), run_done, leValue_leBytes_of_lt value.toNat_lt,
    UInt64.ofNat_toNat]

theorem run_readBytes {count : Int} {bytes : List UInt8} (length : count = bytes.length) :
    (readBytes count).run (bytes ++ rest) = .done (some bytes) rest := by
  have enough : (bytes.length : Int).toNat ≤ (bytes ++ rest).length := by
    rw [Int.toNat_natCast, List.length_append]
    exact Nat.le_add_right _ _
  rw [readBytes, Reader.run, length, if_neg (by omega), if_pos enough, Int.toNat_natCast,
    List.take_left, List.drop_left, run_done]

theorem signed_ofNat {count : Nat} (small : count < 2147483648) :
    signed (UInt32.ofNat count) = count := by
  have fits : count < UInt32.size := small.trans (by decide)
  have same : (UInt32.ofNat count).toNat = count := UInt32.toNat_ofNat_of_lt fits
  rw [signed, same, if_pos small]

theorem run_getDataEntry {bytes : List UInt8} (small : bytes.length < 2147483648) :
    getDataEntry.run (putDataEntry bytes ++ rest) = .done bytes rest := by
  have enough : (bytes.length : Int).toNat ≤ (bytes ++ rest).length := by
    rw [Int.toNat_natCast, List.length_append]
    exact Nat.le_add_right _ _
  rw [getDataEntry, putDataEntry, List.append_assoc, need_written _ (writeInt32_length _),
    run_bind_of_done (run_readInt32 _), signed_ofNat small, if_neg (by omega), Reader.run,
    if_pos enough, run_bind_of_done (run_readBytes rfl)]
  rfl

def solid (entries : List (List UInt8)) : List (List UInt8) := entries.filter (· ≠ [])

theorem run_getEntries {entries : List (List UInt8)}
    (small : ∀ entry ∈ entries, entry.length < 2147483648) :
    (getEntries entries.length).run (entries.flatMap putDataEntry ++ rest) =
      .done (solid entries) rest := by
  induction entries with
  | nil => rfl
  | cons entry others ih =>
    have short := small entry List.mem_cons_self
    have tail := ih fun other member => small other (List.mem_cons_of_mem _ member)
    rw [List.length_cons, getEntries, List.flatMap_cons, putDataEntry, List.append_assoc,
      List.append_assoc, need_written _ (writeInt32_length _),
      run_bind_of_done (run_readInt32 _), signed_ofNat short]
    cases entry with
    | nil =>
      rw [if_pos (by rfl), List.nil_append, tail]
      rfl
    | cons byte bytes =>
      rw [if_neg (by simp only [List.length_cons]; omega),
        run_bind_of_done (run_readBytes rfl), Option.elim_some, run_map, tail]
      rfl

theorem run_getDataVector {entries : List (List UInt8)} (few : entries.length < 2147483648)
    (small : ∀ entry ∈ entries, entry.length < 2147483648) :
    getDataVector.run (putDataVector entries ++ rest) = .done (solid entries) rest := by
  rw [getDataVector, putDataVector, List.append_assoc, need_written _ (writeInt32_length _),
    run_bind_of_done (run_readInt32 _), signed_ofNat few, Int.toNat_natCast,
    run_getEntries small]

/-- The data that an entry announces. A size that is not positive announces none. -/
theorem run_decodeData {size : UInt32} {data : List UInt8}
    (length : data.length = (signed size).toNat) :
    (decodeData (signed size)).run (data ++ rest) = .done data rest := by
  rw [decodeData]
  split_ifs with pos
  · rw [run_bind_of_done (run_readBytes (by omega))]
    rfl
  · have none : data = [] := List.eq_nil_of_length_eq_zero (by omega)
    rw [none]
    rfl

theorem run_decodeEntry {merged : UInt8} {area valsize size : UInt32} {serverFlag : UInt16}
    {info : ItemMeta} {data : List UInt8} (length : data.length = (signed size).toNat) :
    decodeEntry.run (spellEntry merged area serverFlag info valsize size data ++ rest) =
      .done
        { data, area := 0, hasMerged := decide (merged ≠ 0), hasMetaMerged := false,
          serverFlag := serverFlag.toNat,
          dataMeta := { info with valsize := BitVec.ofNat 24 valsize.toNat } }
        rest := by
  simp only [decodeEntry, spellEntry, decodeMeta, spellMeta, List.append_assoc, run_bind,
    run_readInt8, run_readInt16, run_readInt32, run_decodeData length, Reading.andThen,
    pure_eq, run_done]

end Runs

end Tair.Packets
