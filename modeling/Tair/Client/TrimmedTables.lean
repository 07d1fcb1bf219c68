/-
What is left of the tables of a group when a config server cuts off their end.
-/

import Tair.Client.Routing

namespace Tair.Client

open Tair.Library Tair.Common

/-- The bytes that `deflate_hash_table` hands to `compress`. -/
def deflateSource (bucketCount : Nat) (tables : List UInt64) : Option (List UInt8) :=
  let found := lastUsed (tableBytes tables) tables.length
  if found = 0 then none else some ((tableBytes tables).take (roundUp bucketCount found * 8))

def replyWith (bucketCount copyCount : Nat) (version : UInt32) (data : List UInt8) :
    GroupReply where
  bucketCount := bucketCount
  copyCount := copyCount
  configVersion := version
  hashTable := setHashTable (some data)

/-- Whole lines with all entries in use are handed over, nothing only if none is in use, and the
receiver gets all but zeros at the end. -/
structure KeptWhole (zlib : Zlib) (bucketCount copyCount : Nat) (tables : List UInt64) : Prop where
  lines : ∀ source, deflateSource bucketCount tables = some source →
    ∃ lines, lines * bucketCount ≤ tables.length ∧
      source = tableBytes (tables.take (lines * bucketCount)) ∧
      ∀ index entry, tables[index]? = some entry → entry ≠ 0 → index < lines * bucketCount
  nothing : deflateSource bucketCount tables = none → ∀ entry ∈ tables, entry = 0
  list : ∀ packed version, deflateHashTable zlib bucketCount tables = some packed →
    ∃ servers zeros, getServerList zlib bucketCount copyCount
        (replyWith bucketCount copyCount version packed) = some servers ∧
      servers ++ List.replicate zeros 0 = tables

/-- Each entry in use has a byte in use behind it: not in its line, but at a position that is
larger than the number of the first entry of the line and smaller than the number of entries. -/
def EndInUse (bucketCount : Nat) (tables : List UInt64) : Prop :=
  ∀ index entry, tables[index]? = some entry → entry ≠ 0 →
    ∃ position, index / bucketCount * bucketCount < position ∧ position < tables.length ∧
      (tableBytes tables).getD position 0 ≠ 0

theorem lastUsed_used {memory : List UInt8} {index : Nat} (found : lastUsed memory index ≠ 0) :
    memory.getD (lastUsed memory index) 0 ≠ 0 := by
  induction index with
  | zero => exact absurd rfl found
  | succ index ih =>
    rw [lastUsed] at found ⊢
    split_ifs with here
    · exact here
    · rw [if_neg here] at found
      exact ih found

theorem lt_lastUsed_iff {memory : List UInt8} {index bound : Nat} (pos : 0 < index) :
    bound < lastUsed memory index ↔
      ∃ position, bound < position ∧ position < index ∧ memory.getD position 0 ≠ 0 := by
  constructor
  · intro later
    exact ⟨_, later, lastUsed_lt memory pos, lastUsed_used (Nat.ne_zero_of_lt later)⟩
  · rintro ⟨position, later, below, used⟩
    exact later.trans_le (le_lastUsed below used)

theorem roundUp_lines {bucketCount : Nat} (pos : 0 < bucketCount) (index : Nat) :
    ∃ lines, roundUp bucketCount index = lines * bucketCount ∧
      ∀ line, line < lines ↔ line * bucketCount < index := by
  have parts := Nat.div_add_mod' index bucketCount
  unfold roundUp
  split_ifs with whole
  · refine ⟨index / bucketCount, by omega, fun line => ?_⟩
    rw [← Nat.mul_lt_mul_right pos, show index / bucketCount * bucketCount = index by omega]
  · refine ⟨index / bucketCount + 1, by rw [Nat.succ_mul]; omega, fun line => ?_⟩
    rw [Nat.lt_succ_iff, Nat.le_div_iff_mul_le pos]
    refine ⟨fun below => lt_of_le_of_ne below ?_, le_of_lt⟩
    rintro rfl
    exact whole (Nat.mul_mod_left line bucketCount)

theorem tableBytes_take (entries : List UInt64) (count : Nat) :
    (tableBytes entries).take (count * 8) = tableBytes (entries.take count) := by
  induction entries generalizing count with
  | nil => simp [tableBytes]
  | cons entry rest ih =>
    cases count with
    | zero => simp [tableBytes]
    | succ count =>
      rw [List.take_succ_cons, tableBytes, List.flatMap_cons, tableBytes, List.flatMap_cons,
        Nat.succ_mul, Nat.add_comm, List.take_add, ← tableBytes, ← tableBytes, ← ih count]
      rw [List.take_left' (leBytes_length _ _), List.drop_left' (leBytes_length _ _)]

theorem take_append_zeros {tables : List UInt64} {count : Nat}
    (used : ∀ index entry, tables[index]? = some entry → entry ≠ 0 → index < count) :
    tables.take count ++ List.replicate (tables.length - count) 0 = tables := by
  have zeros : tables.drop count = List.replicate (tables.length - count) 0 := by
    refine List.eq_replicate_iff.mpr ⟨List.length_drop, fun entry member => ?_⟩
    obtain ⟨index, found⟩ := List.mem_iff_getElem?.mp member
    rw [List.getElem?_drop] at found
    by_contra inUse
    have below := used _ entry found inUse
    omega
  rw [← zeros, List.take_append_drop]

section Deflated

variable {zlib : Zlib} {bucketCount copyCount tableCount : Nat} {tables : List UInt64}

theorem deflateSource_eq_some (pos : 0 < bucketCount)
    (whole : tables.length = bucketCount * copyCount * tableCount) {source : List UInt8}
    (handed : deflateSource bucketCount tables = some source) :
    ∃ lines, lines * bucketCount ≤ tables.length ∧
      source = tableBytes (tables.take (lines * bucketCount)) ∧
      ∀ line, line < lines ↔ ∃ position, line * bucketCount < position ∧
        position < tables.length ∧ (tableBytes tables).getD position 0 ≠ 0 := by
  unfold deflateSource at handed
  obtain ⟨lines, rounded, inside⟩ :=
    roundUp_lines pos (lastUsed (tableBytes tables) tables.length)
  dsimp only at handed
  split_ifs at handed with none
  cases handed
  have filled : 0 < tables.length := by
    by_contra empty
    rw [Nat.eq_zero_of_not_pos empty] at none
    exact none rfl
  have byLines : tables.length = copyCount * tableCount * bucketCount := by
    rw [whole, Nat.mul_assoc, Nat.mul_comm]
  refine ⟨lines, ?_, ?_, fun line => ?_⟩
  · have early := lastUsed_lt (tableBytes tables) filled
    rw [byLines]
    refine Nat.mul_le_mul_right bucketCount (Nat.le_of_not_lt fun beyond => ?_)
    have late := (inside _).mp beyond
    omega
  · rw [rounded, tableBytes_take]
  · rw [inside, lt_lastUsed_iff filled]

theorem deflateHashTable_eq_some {packed : List UInt8}
    (deflated : deflateHashTable zlib bucketCount tables = some packed) :
    ∃ room source, deflateSource bucketCount tables = some source ∧
      zlib.compress room source = some packed := by
  unfold deflateHashTable at deflated
  dsimp only at deflated
  split_ifs at deflated with none
  exact ⟨_, _, if_neg none, deflated⟩

theorem setHashTable_eq_some_iff {data : List UInt8} (nonempty : data ≠ []) :
    setHashTable (some data) = some data ↔ data.length ≤ tairMaxDataSize := by
  have filled := List.length_pos_of_ne_nil nonempty
  simp [setHashTable, Option.filter_eq_some_iff, filled]

theorem EndInUse.lines (inUse : EndInUse bucketCount tables) (pos : 0 < bucketCount)
    {lines : Nat} (handed : ∀ line, line < lines ↔ ∃ position, line * bucketCount < position ∧
      position < tables.length ∧ (tableBytes tables).getD position 0 ≠ 0) :
    ∀ index entry, tables[index]? = some entry → entry ≠ 0 → index < lines * bucketCount := by
  intro index entry found used
  rw [← Nat.div_lt_iff_lt_mul pos, handed]
  exact inUse index entry found used

theorem EndInUse.kept (inUse : EndInUse bucketCount tables) (pos : 0 < bucketCount)
    (few : tableCount ≤ 2) (whole : tables.length = bucketCount * copyCount * tableCount)
    (small : ∀ packed, deflateHashTable zlib bucketCount tables = some packed →
      packed.length ≤ tairMaxDataSize) : KeptWhole zlib bucketCount copyCount tables where
  lines source handed := by
    obtain ⟨lines, inside, isSource, isLine⟩ := deflateSource_eq_some pos whole handed
    exact ⟨lines, inside, isSource, inUse.lines pos isLine⟩
  nothing none entry member := by
    by_contra used
    obtain ⟨index, found⟩ := List.mem_iff_getElem?.mp member
    obtain ⟨position, later, below, isUsed⟩ := inUse index entry found used
    have last := le_lastUsed below isUsed
    have zero : lastUsed (tableBytes tables) tables.length = 0 := by
      by_contra found
      rw [deflateSource, if_neg found] at none
      cases none
    omega
  list packed version deflated := by
    obtain ⟨room, source, handed, compressed⟩ := deflateHashTable_eq_some deflated
    obtain ⟨lines, inside, isSource, isLine⟩ := deflateSource_eq_some pos whole handed
    refine ⟨tables.take (lines * bucketCount), tables.length - lines * bucketCount, ?_,
      take_append_zeros (inUse.lines pos isLine)⟩
    have stored := (setHashTable_eq_some_iff (zlib.compress_ne_nil compressed)).mpr
      (small packed deflated)
    have fits : source.length ≤ bucketCount * copyCount * 3 * 8 := by
      have room := Nat.mul_le_mul_left (bucketCount * copyCount) (few.trans (Nat.le_succ 2))
      rw [isSource, tableBytes_length, List.length_take]
      omega
    change (setHashTable (some packed)).bind _ = _
    rw [stored, Option.bind_some, zlib.uncompress_compress compressed fits, Option.map_some,
      isSource, entriesOf_tableBytes]

theorem KeptWhole.endInUse (kept : KeptWhole zlib bucketCount copyCount tables)
    (pos : 0 < bucketCount) (whole : tables.length = bucketCount * copyCount * tableCount) :
    EndInUse bucketCount tables := by
  intro index entry found used
  cases handed : deflateSource bucketCount tables with
  | none => exact absurd (kept.nothing handed entry (List.mem_of_getElem? found)) used
  | some source =>
    obtain ⟨lines, inside, isSource, isLine⟩ := deflateSource_eq_some pos whole handed
    obtain ⟨others, within, same, contains⟩ := kept.lines source handed
    have lengths := congrArg List.length (isSource.symm.trans same)
    rw [tableBytes_length, tableBytes_length, List.length_take, List.length_take] at lengths
    rw [← isLine, Nat.div_lt_iff_lt_mul pos]
    have below := contains index entry found used
    omega

theorem KeptWhole.small (kept : KeptWhole zlib bucketCount copyCount tables)
    {packed : List UInt8} (deflated : deflateHashTable zlib bucketCount tables = some packed) :
    packed.length ≤ tairMaxDataSize := by
  obtain ⟨room, source, -, compressed⟩ := deflateHashTable_eq_some deflated
  obtain ⟨servers, zeros, listed, -⟩ := kept.list packed 0 deflated
  obtain ⟨data, stored, -⟩ := Option.bind_eq_some_iff.mp listed
  change setHashTable (some packed) = some data at stored
  cases (Option.filter_eq_some_iff.mp stored).1
  exact (setHashTable_eq_some_iff (zlib.compress_ne_nil compressed)).mp stored

end Deflated

/-- One table or two come whole exactly if each entry in use has a byte in use behind it. -/
theorem tables_kept_iff (zlib : Zlib) (bucketCount copyCount tableCount : Nat)
    (tables : List UInt64) (positive : 0 < bucketCount) (few : tableCount ≤ 2)
    (whole : tables.length = bucketCount * copyCount * tableCount) :
    KeptWhole zlib bucketCount copyCount tables ↔
      EndInUse bucketCount tables ∧
        ∀ packed, deflateHashTable zlib bucketCount tables = some packed →
          packed.length ≤ tairMaxDataSize := by
  constructor
  · exact fun kept => ⟨kept.endInUse positive whole, fun packed => kept.small⟩
  · exact fun ⟨inUse, small⟩ => inUse.kept positive few whole small

theorem tables_kept_iff_losing :
    KeptWhole storing 8 2 (losingGroup.table 10) ↔
      EndInUse 8 (losingGroup.table 10) ∧
        ∀ packed, deflateHashTable storing 8 (losingGroup.table 10) = some packed →
          packed.length ≤ tairMaxDataSize :=
  tables_kept_iff storing 8 2 1 _ (by decide) (by decide) (by decide)

/-- Of version 11 one line of two is handed over, and of version 12 nothing. -/
theorem second_line_cut_off :
    deflateSource 8 (losingGroup.table 11) = some (tableBytes ((losingGroup.table 11).take 8)) ∧
      (losingGroup.table 11)[8]? = some secondServer ∧
      deflateSource 8 (losingGroup.table 12) = none ∧ secondServer ∈ losingGroup.table 12 := by
  decide +kernel

end Tair.Client
