/-
The reader that goes through a data file from record to record. It has a part of the file in a
buffer and reads again whenever a header or a record goes beyond it.
-/

import Tair.Common.DataEntry

namespace Tair.Fdb

open Tair.Common Tair.Library

def syncReadFileLen : Nat := 64 * 1024

/-- `read_length` is the length of what is in the buffer. -/
structure DataReader where
  hasRead : Bool
  offset : Nat
  bufferOffset : Nat
  wantLength : Nat
  buffer : List UInt8
deriving DecidableEq, Repr

/-- One pass of `get_next_item` from `_Restart` on. -/
inductive Turn where
  | returns (item : Option (List UInt8)) (reader : DataReader)
  | aborts
  | again (reader : DataReader)
deriving DecidableEq, Repr

def headerAt (memory : List UInt8) (position : Nat) : ItemMeta :=
  ItemMeta.ofBytes ((memory.drop position).take ItemMeta.size)

/-- `total_size` has 32 bits. -/
def recordSize (header : ItemMeta) : Nat :=
  (ItemMeta.size + header.keysize.toNat + header.valsize.toNat + header.padsize.toNat) % 2 ^ 32

def tairItemFlagDeleted : UInt8 := 2

def isItemExpired (data : ItemMeta) (now : UInt32) : Bool := data.edate ≠ 0 ∧ data.edate < now

def isDeleted (header : ItemMeta) : Bool := header.flag &&& tairItemFlagDeleted ≠ 0

namespace DataReader

/-- `data_reader` as it is made. -/
def fresh : DataReader := ⟨false, 0, 0, 0, []⟩

def position (reader : DataReader) : Nat := reader.offset + reader.bufferOffset

def rest (reader : DataReader) : Nat := reader.buffer.length - reader.bufferOffset

/-- The `want_length` with which `read_file_by_lock` reads. -/
def lengthToRead (file : List UInt8) (offset want size : Nat) : Nat :=
  if file.length - offset < want then max (file.length - offset) size else want

/-- `read_file_by_lock` at an offset, with an empty buffer of `want` bytes. The `file_size` of the
reader is the length of the file. -/
def readFileByLock (file : List UInt8) (offset want size : Nat) : DataReader :=
  if file.length ≤ offset then ⟨true, offset, 0, want, []⟩
  else
    ⟨true, offset, 0, lengthToRead file offset want size,
      (file.drop offset).take (lengthToRead file offset want size)⟩

def turn (file : List UInt8) (now : UInt32) (reader : DataReader) : Turn :=
  if reader.buffer = [] then .returns none reader
  else if ItemMeta.size ≤ reader.rest then
    let header := headerAt reader.buffer reader.bufferOffset
    let total := recordSize header
    if header.keysize ≤ 2 then .aborts
    else if total ≤ reader.rest then
      let passed := { reader with bufferOffset := reader.bufferOffset + total }
      if isDeleted header = false ∧ isItemExpired header now = false then
        .returns (some ((reader.buffer.drop reader.bufferOffset).take total)) passed
      else .again passed
    else if isDeleted header then
      .again (readFileByLock file (reader.position + total) syncReadFileLen total)
    else .again (readFileByLock file reader.position (max syncReadFileLen total) total)
  else .again (readFileByLock file reader.position syncReadFileLen ItemMeta.size)

def passes (file : List UInt8) (now : UInt32) : Nat → DataReader → Option Turn
  | 0, _ => none
  | count + 1, reader =>
    match reader.turn file now with
    | .again next => passes file now count next
    | finished => some finished

end DataReader

/-! ### Records of a file -/

section Records

variable (file : List UInt8) (now : UInt32)

def Skips (position next : Nat) : Prop :=
  position + ItemMeta.size ≤ file.length ∧ 2 < (headerAt file position).keysize ∧
    position + recordSize (headerAt file position) ≤ file.length ∧
    (isDeleted (headerAt file position) = true ∨
      isItemExpired (headerAt file position) now = true) ∧
    next = position + recordSize (headerAt file position)

/-- The file ends in the header, or in a record that is not deleted, or the record is passed over
and has no bytes. -/
def Torn (position : Nat) : Prop :=
  (position < file.length ∧ file.length < position + ItemMeta.size) ∨
    (position + ItemMeta.size ≤ file.length ∧ 2 < (headerAt file position).keysize ∧
      ((isDeleted (headerAt file position) = false ∧
          file.length < position + recordSize (headerAt file position)) ∨
        (recordSize (headerAt file position) = 0 ∧
          (isDeleted (headerAt file position) = true ∨
            isItemExpired (headerAt file position) now = true))))

def Readable (position : Nat) : Prop :=
  ∀ reached, Relation.ReflTransGen (Skips file now) position reached → ¬Torn file now reached

end Records

section Reading

variable {file : List UInt8} {now : UInt32} {position next : Nat}

theorem readable_of_length_le (past : file.length ≤ position) : Readable file now position := by
  intro reached path
  rcases path.cases_head with rfl | ⟨other, ⟨inside, -⟩, -⟩
  · rintro (⟨inside, -⟩ | ⟨inside, -⟩)
    · omega
    · unfold ItemMeta.size at inside
      omega
  · unfold ItemMeta.size at inside
    omega

theorem readable_iff_of_skips (skips : Skips file now position next)
    (fine : ¬Torn file now position) : Readable file now position ↔ Readable file now next := by
  constructor
  · exact fun readable reached path => readable reached (path.head skips)
  · intro readable reached path
    rcases path.cases_head with rfl | ⟨other, first, path⟩
    · exact fine
    · have same : other = next := first.2.2.2.2.trans skips.2.2.2.2.symm
      rw [same] at path
      exact readable reached path

theorem readable_of_not_skips (last : ∀ next, ¬Skips file now position next)
    (fine : ¬Torn file now position) : Readable file now position := by
  intro reached path
  rcases path.cases_head with rfl | ⟨other, first, -⟩
  · exact fine
  · exact absurd first (last other)

/-! ### The buffer -/

structure Loaded (file : List UInt8) (reader : DataReader) : Prop where
  hasRead : reader.hasRead = true
  held : reader.buffer = (file.drop reader.offset).take reader.buffer.length
  inside : reader.bufferOffset ≤ reader.buffer.length
  empty : reader.buffer = [] → file.length ≤ reader.offset

namespace DataReader

variable {reader : DataReader} {offset want size : Nat}

@[simp]
theorem position_readFileByLock : (readFileByLock file offset want size).position = offset := by
  unfold readFileByLock
  split_ifs <;> rfl

theorem loaded_readFileByLock (pos : 0 < want) :
    Loaded file (readFileByLock file offset want size) := by
  unfold readFileByLock
  split_ifs with past
  · exact ⟨rfl, rfl, Nat.zero_le _, fun _ => past⟩
  · refine ⟨rfl, ?_, Nat.zero_le _, fun none => ?_⟩
    · rw [List.length_take, List.take_eq_take_iff]
      omega
    · have length := congrArg List.length none
      rw [List.length_take, List.length_drop, List.length_nil, lengthToRead] at length
      split_ifs at length <;> omega

theorem le_rest_readFileByLock (enough : size ≤ want) :
    min size (file.length - offset) ≤ (readFileByLock file offset want size).rest := by
  unfold readFileByLock
  split_ifs with past
  · omega
  · change _ ≤ List.length _ - 0
    rw [List.length_take, List.length_drop, lengthToRead]
    split_ifs <;> omega

end DataReader

open DataReader

variable {reader after : DataReader}

section

variable (loaded : Loaded file reader)

include loaded

theorem Loaded.rest_le : reader.rest ≤ file.length - reader.position := by
  have length := congrArg List.length loaded.held
  rw [List.length_take, List.length_drop] at length
  unfold DataReader.rest DataReader.position
  omega

theorem Loaded.buffer_ne_nil (inside : reader.position < file.length) : reader.buffer ≠ [] := by
  intro none
  have past := loaded.empty none
  unfold DataReader.position at inside
  omega

theorem Loaded.header (enough : ItemMeta.size ≤ reader.rest) :
    headerAt reader.buffer reader.bufferOffset = headerAt file reader.position := by
  unfold headerAt DataReader.position
  unfold DataReader.rest at enough
  rw [loaded.held, List.drop_take, List.take_take, List.drop_drop, Nat.min_eq_left enough]

theorem Loaded.passed {total : Nat} (inside : total ≤ reader.rest) :
    Loaded file { reader with bufferOffset := reader.bufferOffset + total } := by
  refine ⟨loaded.hasRead, loaded.held, ?_, loaded.empty⟩
  have within := loaded.inside
  unfold DataReader.rest at inside
  change reader.bufferOffset + total ≤ reader.buffer.length
  omega

/-- At a torn record the reader reads the same part of the file again and again. -/
theorem Loaded.turn_torn (torn : Torn file now reader.position) :
    ∃ after, reader.turn file now = .again after ∧ Loaded file after ∧
      after.position = reader.position := by
  have reload : ∀ want size, 0 < want → ∃ after,
      Turn.again (readFileByLock file reader.position want size) = .again after ∧
        Loaded file after ∧ after.position = reader.position := by
    intro want size pos
    exact ⟨_, rfl, loaded_readFileByLock pos, position_readFileByLock⟩
  have within := loaded.rest_le
  have begun : reader.position < file.length := by
    unfold Torn ItemMeta.size at torn
    omega
  unfold turn
  rw [if_neg (loaded.buffer_ne_nil begun)]
  by_cases enough : ItemMeta.size ≤ reader.rest
  · rw [if_pos enough]
    rcases torn with ⟨-, short⟩ | ⟨-, keyed, ending⟩
    · omega
    · dsimp only
      rw [loaded.header enough, if_neg (UInt16.not_le.mpr keyed)]
      rcases ending with ⟨live, beyond⟩ | ⟨none, dead⟩
      · rw [if_neg (by omega), live]
        exact reload _ _ (lt_max_of_lt_left (by decide))
      · rw [none, if_pos (Nat.zero_le _), if_neg]
        · exact ⟨_, rfl, loaded.passed (Nat.zero_le _), rfl⟩
        · rintro ⟨live, valid⟩
          rw [live, valid] at dead
          simp at dead
  · rw [if_neg enough]
    exact reload _ _ (by decide)

end

def reloads (file : List UInt8) (reader : DataReader) : Nat :=
  if reader.buffer = [] then 0
  else if reader.rest < ItemMeta.size then 2
  else if reader.rest < recordSize (headerAt file reader.position) then 1
  else 0

def ahead (file : List UInt8) (reader : DataReader) : Nat :=
  3 * (file.length - reader.position) + reloads file reader

theorem reloads_le (file : List UInt8) (reader : DataReader) : reloads file reader ≤ 2 := by
  unfold reloads
  split_ifs <;> omega

theorem ahead_lt (inside : reader.position < file.length)
    (later : reader.position < after.position) : ahead file after < ahead file reader := by
  have few := reloads_le file after
  unfold ahead
  omega

/-- A record that is whole is read, passed over or left behind, and the scan gets on. -/
theorem Loaded.turn_again (loaded : Loaded file reader) (fine : ¬Torn file now reader.position)
    (turned : reader.turn file now = .again after) :
    Loaded file after ∧ ahead file after < ahead file reader ∧
      (Readable file now reader.position ↔ Readable file now after.position) := by
  have within := loaded.rest_le
  unfold turn at turned
  dsimp only at turned
  split_ifs at turned with none enough keyed whole live deleted
  · -- Passed over in the buffer.
    cases turned
    rw [loaded.header enough] at keyed whole live ⊢
    unfold ItemMeta.size at enough
    have skips : Skips file now reader.position
        (reader.position + recordSize (headerAt file reader.position)) := by
      refine ⟨by unfold ItemMeta.size; omega, UInt16.not_le.mp keyed, by omega, ?_, rfl⟩
      rw [not_and_or] at live
      simpa using live
    have moves : 0 < recordSize (headerAt file reader.position) :=
      Nat.pos_of_ne_zero fun zero =>
        fine (.inr ⟨skips.1, skips.2.1, .inr ⟨zero, skips.2.2.2.1⟩⟩)
    have more : ∀ total, DataReader.position
        { reader with bufferOffset := reader.bufferOffset + total } = reader.position + total :=
      fun total => (Nat.add_assoc _ _ _).symm
    refine ⟨loaded.passed whole, ahead_lt (by omega) ?_, ?_⟩
    · rw [more]
      omega
    · rw [more, readable_iff_of_skips skips fine]
  · -- A deleted record that goes beyond the buffer.
    cases turned
    rw [loaded.header enough] at keyed whole deleted ⊢
    unfold ItemMeta.size at enough
    refine ⟨loaded_readFileByLock (by decide), ahead_lt (by omega) ?_, ?_⟩
    · rw [position_readFileByLock]
      omega
    · rw [position_readFileByLock]
      by_cases inside : reader.position + recordSize (headerAt file reader.position) ≤ file.length
      · refine readable_iff_of_skips ⟨by unfold ItemMeta.size; omega, ?_⟩ fine
        exact ⟨UInt16.not_le.mp keyed, inside, .inl deleted, rfl⟩
      · refine iff_of_true (readable_of_not_skips ?_ fine) (readable_of_length_le (by omega))
        exact fun next skips => inside skips.2.2.1
  · -- A record that has to be read as a whole.
    cases turned
    rw [loaded.header enough] at keyed whole deleted ⊢
    have there : recordSize (headerAt file reader.position) ≤ file.length - reader.position := by
      by_contra beyond
      refine fine (.inr ⟨by unfold ItemMeta.size at *; omega, UInt16.not_le.mp keyed, .inl ?_⟩)
      exact ⟨by simpa using deleted, by omega⟩
    have full := @le_rest_readFileByLock file reader.position _ _
      (le_max_right syncReadFileLen (recordSize (headerAt file reader.position)))
    rw [Nat.min_eq_left there] at full
    refine ⟨loaded_readFileByLock (lt_max_of_lt_left (by decide)), ?_, ?_⟩
    · unfold ahead reloads
      rw [position_readFileByLock, if_neg none]
      split_ifs <;> omega
    · rw [position_readFileByLock]
  · -- A header that goes beyond the buffer.
    cases turned
    refine ⟨loaded_readFileByLock (by decide), ?_, ?_⟩
    · have full := @le_rest_readFileByLock file reader.position syncReadFileLen
        ItemMeta.size (by decide)
      unfold ahead reloads
      rw [position_readFileByLock, if_neg none, if_pos (Nat.not_le.mp enough)]
      by_cases past : file.length ≤ reader.position
      · rw [if_pos (by rw [readFileByLock, if_pos past])]
        omega
      · have there : reader.position + ItemMeta.size ≤ file.length := by
          by_contra short
          exact fine (.inl ⟨by omega, by omega⟩)
        rw [Nat.min_eq_left (by omega)] at full
        split_ifs <;> omega
    · rw [position_readFileByLock]

/-- The call ends at the end of the file, or at a record that is not passed over. -/
theorem Loaded.readable_of_ended (loaded : Loaded file reader)
    (fine : ¬Torn file now reader.position) (ended : ∀ after, reader.turn file now ≠ .again after) :
    Readable file now reader.position := by
  unfold turn at ended
  dsimp only at ended
  split_ifs at ended with none enough keyed whole live deleted
  · refine readable_of_length_le ((loaded.empty none).trans ?_)
    exact Nat.le_add_right _ _
  · rw [loaded.header enough] at keyed
    refine readable_of_not_skips (fun next skips => ?_) fine
    exact absurd skips.2.1 (UInt16.not_lt.mpr keyed)
  · rw [loaded.header enough] at live
    refine readable_of_not_skips (fun next skips => ?_) fine
    have dead := skips.2.2.2.1
    rw [live.1, live.2] at dead
    simp at dead
  all_goals exact absurd rfl (ended _)

/-! ### Calls -/

theorem DataReader.exists_passes_iff (turned : reader.turn file now = .again after) :
    (∃ count, (reader.passes file now count).isSome) ↔
      ∃ count, (after.passes file now count).isSome := by
  have next : ∀ count, reader.passes file now (count + 1) = after.passes file now count := by
    intro count
    rw [passes, turned]
  constructor
  · rintro ⟨count, ended⟩
    cases count with
    | zero => cases ended
    | succ count => exact ⟨count, by rwa [next] at ended⟩
  · rintro ⟨count, ended⟩
    exact ⟨count + 1, by rwa [next]⟩

/-- The loop ends exactly if no record that it reaches is torn. -/
theorem Loaded.passes_iff (loaded : Loaded file reader) :
    (∃ count, (reader.passes file now count).isSome) ↔ Readable file now reader.position := by
  induction left : ahead file reader using Nat.strong_induction_on generalizing reader with
  | _ amount ih =>
  by_cases torn : Torn file now reader.position
  · refine iff_of_false ?_ fun readable => readable _ .refl torn
    rintro ⟨count, ended⟩
    clear ih left
    induction count generalizing reader with
    | zero => cases ended
    | succ count ih =>
      obtain ⟨after, turned, reloaded, same⟩ := loaded.turn_torn torn
      rw [passes, turned] at ended
      exact ih reloaded (same ▸ torn) ended
  · cases turned : reader.turn file now with
    | again after =>
      obtain ⟨reloaded, less, same⟩ := loaded.turn_again torn turned
      rw [same, exists_passes_iff turned]
      exact ih _ (left ▸ less) reloaded rfl
    | returns item after =>
      refine iff_of_true ⟨1, ?_⟩ (loaded.readable_of_ended torn fun other again => ?_)
      · rw [passes, turned]
        rfl
      · rw [turned] at again
        cases again
    | aborts =>
      refine iff_of_true ⟨1, ?_⟩ (loaded.readable_of_ended torn fun other again => ?_)
      · rw [passes, turned]
        rfl
      · rw [turned] at again
        cases again

theorem Loaded.of_passes {count : Nat} {item : Option (List UInt8)} (loaded : Loaded file reader)
    (gave : reader.passes file now count = some (.returns item after)) : Loaded file after := by
  induction count generalizing reader with
  | zero => cases gave
  | succ count ih =>
    cases turned : reader.turn file now with
    | again next =>
      rw [passes, turned] at gave
      refine ih ?_ gave
      by_cases torn : Torn file now reader.position
      · obtain ⟨other, same, reloaded, -⟩ := loaded.turn_torn torn
        rw [turned] at same
        cases same
        exact reloaded
      · exact (loaded.turn_again torn turned).1
    | aborts =>
      rw [passes, turned] at gave
      cases gave
    | returns found left =>
      rw [passes, turned] at gave
      cases gave
      unfold turn at turned
      dsimp only at turned
      split_ifs at turned with none enough keyed whole
      · cases turned
        exact loaded
      · cases turned
        exact loaded.passed whole

namespace DataReader

/-- The reader after the first lines of `get_next_item`. -/
def begun (file : List UInt8) (reader : DataReader) : DataReader :=
  if reader.hasRead then reader
  else readFileByLock file (if reader.offset = 0 then 16 else reader.offset) syncReadFileLen
    syncReadFileLen

/-- `get_next_item`, if it ends within so many passes. -/
def getNextItem (file : List UInt8) (now : UInt32) (count : Nat) (reader : DataReader) :
    Option Turn :=
  if file.length ≤ (reader.begun file).position then some (.returns none (reader.begun file))
  else (reader.begun file).passes file now count

end DataReader

inductive Used (file : List UInt8) : DataReader → Prop
  | fresh : Used file .fresh
  | called {reader after : DataReader} {now : UInt32} {count : Nat} {item : Option (List UInt8)}
      (used : Used file reader)
      (returned : reader.getNextItem file now count = some (.returns item after)) :
      Used file after

theorem Used.loaded (used : Used file reader) : Loaded file (reader.begun file) := by
  induction used with
  | fresh => exact loaded_readFileByLock (by decide)
  | @called reader after now count item used gave ih =>
    have left : Loaded file after := by
      unfold getNextItem at gave
      split_ifs at gave
      · cases gave
        exact ih
      · exact ih.of_passes gave
    rw [begun, left.hasRead]
    exact left

/-- A call ends exactly if no record that it reaches is torn. -/
theorem next_item_ends_iff (file : List UInt8) (now : UInt32) (reader : DataReader)
    (used : Used file reader) :
    (∃ count, (reader.getNextItem file now count).isSome) ↔
      Readable file now (reader.begun file).position := by
  unfold getNextItem
  split_ifs with past
  · exact iff_of_true ⟨0, rfl⟩ (readable_of_length_le past)
  · exact used.loaded.passes_iff

def shortFile : List UInt8 := List.replicate 21 0

/-- A key of three bytes and a value of one. -/
def recordOf (flag edate : UInt8) : List UInt8 :=
  [0, 0, 0, 0, 3, 0, 0, 0, 0, 0, 0, 0, 1, 0, 0, flag, 0, 0, 0, 0, 0, 0, 0, 0, edate, 0, 0, 0,
    1, 0, 65, 7]

/-- At time 5 the first record is deleted, the second one has expired and the third one has not. -/
def mixedRecords : List (List UInt8) := [recordOf 2 0, recordOf 0 4, recordOf 0 9]

def mixedFile : List UInt8 := List.replicate 16 0 ++ mixedRecords.flatten

theorem next_item_ends_iff_mixed :
    (DataReader.fresh.getNextItem mixedFile 5 3).isSome = true ∧
      Readable mixedFile 5 (DataReader.fresh.begun mixedFile).position :=
  ⟨by decide, (next_item_ends_iff _ _ _ .fresh).mp ⟨3, by decide⟩⟩

/-- The five bytes are read over and over. -/
theorem short_header_never_ends :
    ¬∃ count, (DataReader.fresh.getNextItem shortFile 1 count).isSome := by
  have loaded : Loaded shortFile (DataReader.fresh.begun shortFile) := Used.fresh.loaded
  have torn : ¬Readable shortFile 1 (DataReader.fresh.begun shortFile).position := by
    refine fun readable => readable _ .refl (.inl ?_)
    decide
  rw [← loaded.passes_iff] at torn
  rintro ⟨count, ended⟩
  rw [getNextItem, if_neg (by decide)] at ended
  exact torn ⟨count, ended⟩

/-! ### Whole files -/

structure WholeRecord (record : List UInt8) : Prop where
  header : ItemMeta.size ≤ record.length
  length : recordSize (headerAt record 0) = record.length
  keyed : 2 < (headerAt record 0).keysize

def isLive (now : UInt32) (record : List UInt8) : Bool :=
  isDeleted (headerAt record 0) = false ∧ isItemExpired (headerAt record 0) now = false

section

variable {record more : List UInt8} (there : file.drop position = record ++ more)
  (whole : WholeRecord record)

include there whole

theorem WholeRecord.inside : position + record.length ≤ file.length := by
  have length := congrArg List.length there
  rw [List.length_drop, List.length_append] at length
  have long := whole.header
  unfold ItemMeta.size at long
  omega

theorem WholeRecord.headerAt_eq : headerAt file position = headerAt record 0 := by
  unfold headerAt
  rw [there, List.take_append_of_le_length whole.header, List.drop_zero]

theorem WholeRecord.not_torn : ¬Torn file now position := by
  have inside := whole.inside there
  have long := whole.header
  unfold Torn ItemMeta.size at *
  rw [whole.headerAt_eq there, whole.length]
  omega

end

/-- One pass at the start of a record returns it, or passes over it, or reads again. -/
theorem Loaded.turn_record (loaded : Loaded file reader) {record more : List UInt8}
    (there : file.drop reader.position = record ++ more) (whole : WholeRecord record) :
    (isLive now record = true ∧ ∃ after, reader.turn file now = .returns (some record) after ∧
      Loaded file after ∧ after.position = reader.position + record.length) ∨
    ∃ after, reader.turn file now = .again after ∧ (after.position = reader.position ∨
      isLive now record = false ∧ after.position = reader.position + record.length) := by
  have inside := whole.inside there
  have long := whole.header
  unfold turn
  dsimp only
  rw [if_neg (loaded.buffer_ne_nil (by unfold ItemMeta.size at long; omega))]
  by_cases enough : ItemMeta.size ≤ reader.rest
  · rw [if_pos enough, loaded.header enough, whole.headerAt_eq there, whole.length,
      if_neg (UInt16.not_le.mpr whole.keyed)]
    split_ifs with fits live deleted
    · refine .inl ⟨decide_eq_true live, _, ?_, loaded.passed fits, (Nat.add_assoc _ _ _).symm⟩
      unfold DataReader.rest at fits
      unfold DataReader.position at there
      rw [loaded.held, List.drop_take, List.take_take, Nat.min_eq_left fits, List.drop_drop,
        there, List.take_left]
    · exact .inr ⟨_, rfl, .inr ⟨decide_eq_false live, (Nat.add_assoc _ _ _).symm⟩⟩
    · refine .inr ⟨_, rfl, .inr ⟨decide_eq_false fun live => ?_,
        position_readFileByLock⟩⟩
      rw [live.1] at deleted
      cases deleted
    · exact .inr ⟨_, rfl, .inl position_readFileByLock⟩
  · rw [if_neg enough]
    exact .inr ⟨_, rfl, .inl position_readFileByLock⟩

/-- What a call from the start of some records gives and leaves. -/
structure NextItem (file : List UInt8) (now : UInt32) (rest : List (List UInt8))
    (item : Option (List UInt8)) (after : DataReader) (later : List (List UInt8)) : Prop where
  loaded : Loaded file after
  place : file.drop after.position = later.flatten
  suffix : later <:+ rest
  items : rest.filter (isLive now) = item.toList ++ later.filter (isLive now)
  ends : item = none → later = []

theorem Loaded.passes_records (now : UInt32) (loaded : Loaded file reader)
    {rest : List (List UInt8)} (whole : ∀ record ∈ rest, WholeRecord record)
    (there : file.drop reader.position = rest.flatten) :
    ∃ count item after later, reader.passes file now count = some (.returns item after) ∧
      NextItem file now rest item after later := by
  induction left : ahead file reader using Nat.strong_induction_on generalizing reader rest with
  | _ amount ih =>
  have onward : ∀ {next others}, reader.turn file now = .again next →
      ¬Torn file now reader.position → (∀ record ∈ others, WholeRecord record) →
      file.drop next.position = others.flatten →
      ∃ count item after later, reader.passes file now count = some (.returns item after) ∧
        NextItem file now others item after later := by
    intro next others turned fine whole there
    obtain ⟨reloaded, less, -⟩ := loaded.turn_again fine turned
    obtain ⟨count, item, after, later, gave, found⟩ := ih _ (left ▸ less) reloaded whole there rfl
    refine ⟨count + 1, item, after, later, ?_, found⟩
    rw [passes, turned]
    exact gave
  cases rest with
  | nil =>
    by_cases none : reader.buffer = []
    · refine ⟨1, .none, reader, [], ?_, loaded, there, List.suffix_rfl, rfl, fun _ => rfl⟩
      rw [passes, turn, if_pos none]
    · have past : file.length ≤ reader.position := List.drop_eq_nil_iff.mp there
      have turned : reader.turn file now =
          .again (.readFileByLock file reader.position syncReadFileLen ItemMeta.size) := by
        have within := loaded.rest_le
        rw [turn, if_neg none, if_neg (by unfold ItemMeta.size; omega)]
      refine onward turned (readable_of_length_le past _ .refl) whole ?_
      rw [position_readFileByLock]
      exact there
  | cons record rest =>
    rw [List.flatten_cons] at there
    have behind : file.drop (reader.position + record.length) = rest.flatten := by
      rw [← List.drop_drop, there, List.drop_left]
    have first := whole record List.mem_cons_self
    rcases loaded.turn_record there first with
      ⟨live, after, turned, passed, moved⟩ | ⟨next, turned, same | ⟨dead, moved⟩⟩
    · refine ⟨1, record, after, rest, ?_, passed, moved ▸ behind, List.suffix_cons _ _,
        List.filter_cons_of_pos live, nofun⟩
      rw [passes, turned]
    · refine onward turned (first.not_torn there) whole ?_
      rw [same, there, List.flatten_cons]
    · obtain ⟨count, item, after, later, gave, found⟩ := onward turned (first.not_torn there)
        (fun other member => whole other (List.mem_cons_of_mem _ member)) (moved ▸ behind)
      refine ⟨count, item, after, later, gave, found.loaded, found.place,
        found.suffix.trans (List.suffix_cons _ _), ?_, found.ends⟩
      rw [List.filter_cons_of_neg (by rw [dead]; decide)]
      exact found.items

/-- The loop of a migration: `get_next_items` until there is nothing more. Each call has its
number of passes. -/
def DataReader.readAll (file : List UInt8) (now : UInt32) :
    List Nat → DataReader → Option (List (List UInt8))
  | [], _ => none
  | count :: counts, reader =>
    match reader.getNextItem file now count with
    | some (.returns (some item) after) => (readAll file now counts after).map (item :: ·)
    | some (.returns none _) => some []
    | _ => none

theorem Loaded.readAll_records (now : UInt32) (loaded : Loaded file (reader.begun file))
    {rest : List (List UInt8)} (whole : ∀ record ∈ rest, WholeRecord record)
    (there : file.drop (reader.begun file).position = rest.flatten) :
    ∃ counts, reader.readAll file now counts = some (rest.filter (isLive now)) := by
  induction left : (rest.filter (isLive now)).length using Nat.strong_induction_on
    generalizing reader rest with
  | _ amount ih =>
  obtain ⟨count, item, after, later, gave, found⟩ := loaded.passes_records now whole there
  by_cases past : file.length ≤ (reader.begun file).position
  · refine ⟨[0], ?_⟩
    rw [readAll, getNextItem, if_pos past]
    cases rest with
    | nil => rfl
    | cons record rest =>
      rw [List.flatten_cons] at there
      have long := (whole record List.mem_cons_self).header
      have inside := (whole record List.mem_cons_self).inside there
      unfold ItemMeta.size at long
      omega
  · cases item with
    | none =>
      refine ⟨[count], ?_⟩
      rw [readAll, getNextItem, if_neg past, gave, found.items,
        found.ends rfl]
      rfl
    | some item =>
      have same : after.begun file = after := by
        rw [begun, found.loaded.hasRead]
        rfl
      rw [found.items] at left ⊢
      obtain ⟨counts, more⟩ := ih _ (left ▸ Nat.lt_succ_self _) (same.symm ▸ found.loaded)
        (fun record member => whole record (found.suffix.subset member))
        (same.symm ▸ found.place) rfl
      refine ⟨count :: counts, ?_⟩
      rw [readAll, getNextItem, if_neg past, gave]
      change Option.map _ (after.readAll file now counts) = _
      rw [more]
      rfl

/-- The `file_size` that `begin_scan` sets: `get_size` is an `int`. -/
def fileSize (file : List UInt8) : Nat :=
  ((file.length : Int).bmod (2 ^ 32) % 2 ^ 64).toNat

theorem fileSize_of_lt (short : file.length < 2 ^ 31) : fileSize file = file.length := by
  unfold fileSize
  rw [Int.bmod_eq_of_le (by omega) (by omega)]
  omega

/-- A scan of a file whose records stand side by side behind its first 16 bytes returns the
records that are neither deleted nor expired, in their order, and ends. The size of a file of 2 GB
is another one to the reader. -/
theorem scan_returns_live {head : List UInt8} (first : head.length = 16)
    {records : List (List UInt8)} (whole : ∀ record ∈ records, WholeRecord record)
    (short : (head ++ records.flatten).length < 2 ^ 31) (now : UInt32) :
    fileSize (head ++ records.flatten) = (head ++ records.flatten).length ∧
      ∃ counts, DataReader.fresh.readAll (head ++ records.flatten) now counts =
        some (records.filter (isLive now)) := by
  refine ⟨fileSize_of_lt short, Used.fresh.loaded.readAll_records now whole ?_⟩
  change List.drop (readFileByLock _ 16 _ _).position _ = _
  rw [position_readFileByLock, ← first, List.drop_left]

theorem scan_returns_third : fileSize mixedFile = 112 ∧
    ∃ counts, DataReader.fresh.readAll mixedFile 5 counts = some [recordOf 0 9] := by
  have whole : ∀ flag edate, WholeRecord (recordOf flag edate) :=
    fun _ _ => ⟨(by decide : 28 ≤ 32), rfl, (by decide : (2 : UInt16) < 3)⟩
  have all : ∀ record ∈ mixedRecords, WholeRecord record := by
    simp [mixedRecords, whole]
  have short : mixedFile.length < 2 ^ 31 := by decide
  exact scan_returns_live (rfl : (List.replicate 16 0).length = 16) all short 5

end Reading

end Tair.Fdb
