/-
Entries on the wire. Everything of an entry is written and read back, except for its area: the
reader assigns the variable that it read the area into to itself, and a fresh entry keeps area 0.
-/

import Tair.Packets.Buffer

namespace Tair.Packets

open Tair.Library Tair.Common

/-- The ranges of the types of the members. An area is taken as its 32 bits. -/
structure Ranged (entry : DataEntry) : Prop where
  size : entry.data.length < 2147483648
  area : entry.area < UInt32.size
  serverFlag : entry.serverFlag < UInt16.size

structure SameEntry (entry other : DataEntry) : Prop where
  data : entry.data = other.data
  hasMerged : entry.hasMerged = other.hasMerged
  area : entry.area = other.area
  serverFlag : entry.serverFlag = other.serverFlag
  dataMeta : entry.dataMeta = other.dataMeta

def decodeEntries : Nat → Reader (List DataEntry)
  | 0 => pure []
  | count + 1 => do
    let entry ← decodeEntry
    let others ← decodeEntries count
    pure (entry :: others)

def received (entry : DataEntry) : DataEntry := { entry with area := 0, hasMetaMerged := false }

theorem run_decodeEntry_encodeEntry {entry : DataEntry} {rest : List UInt8}
    (ranged : Ranged entry) :
    decodeEntry.run (encodeEntry entry ++ rest) = .done (received entry) rest := by
  have length : entry.data.length = (signed (UInt32.ofNat entry.data.length)).toNat := by
    rw [signed_ofNat ranged.size, Int.toNat_natCast]
  have merged :
      decide ((if entry.hasMerged = true then 1 else 0 : UInt8) ≠ 0) = entry.hasMerged := by
    cases entry.hasMerged <;> rfl
  have flag : (UInt16.ofNat entry.serverFlag).toNat = entry.serverFlag :=
    UInt16.toNat_ofNat_of_lt ranged.serverFlag
  have valsize : BitVec.ofNat 24 (UInt32.ofNat entry.dataMeta.valsize.toNat).toNat =
      entry.dataMeta.valsize := by
    have fits : entry.dataMeta.valsize.toNat < UInt32.size :=
      entry.dataMeta.valsize.isLt.trans (by decide)
    have same : (UInt32.ofNat entry.dataMeta.valsize.toNat).toNat =
        entry.dataMeta.valsize.toNat := UInt32.toNat_ofNat_of_lt fits
    rw [same, BitVec.ofNat_toNat, BitVec.setWidth_eq]
  rw [encodeEntry, run_decodeEntry length, merged, flag, valsize]
  rfl

theorem run_decodeEntries {entries : List DataEntry} {rest : List UInt8}
    (ranged : ∀ entry ∈ entries, Ranged entry) :
    (decodeEntries entries.length).run (entries.flatMap encodeEntry ++ rest) =
      .done (entries.map received) rest := by
  induction entries with
  | nil => rfl
  | cons entry others ih =>
    have tail := ih fun other member => ranged other (List.mem_cons_of_mem _ member)
    rw [List.length_cons, decodeEntries, List.flatMap_cons, List.append_assoc,
      Reader.run_bind_of_done (run_decodeEntry_encodeEntry (ranged entry List.mem_cons_self)),
      Reader.run_bind_of_done tail]
    rfl

theorem same_received_iff (entry : DataEntry) :
    SameEntry (received entry) entry ↔ entry.area = 0 := by
  constructor
  · intro same
    exact same.area.symm
  · intro zero
    exact ⟨rfl, rfl, zero.symm, rfl, rfl⟩

/-- Entries that are written back to back are read back as the same sequence, with the buffer right
behind them, exactly if their areas are all 0. -/
theorem entries_back_iff (entries : List DataEntry) (rest : List UInt8)
    (ranged : ∀ entry ∈ entries, Ranged entry) :
    (∃ back, (decodeEntries entries.length).run (entries.flatMap encodeEntry ++ rest) =
        .done back rest ∧ List.Forall₂ SameEntry back entries) ↔
      ∀ entry ∈ entries, entry.area = 0 := by
  rw [run_decodeEntries ranged]
  constructor
  · intro same
    obtain ⟨back, ends, same⟩ := same
    injection ends with isBack
    rw [← isBack, List.forall₂_map_left_iff, List.forall₂_same] at same
    exact fun entry member => (same_received_iff entry).mp (same entry member)
  · intro zero
    refine ⟨_, rfl, ?_⟩
    rw [List.forall₂_map_left_iff, List.forall₂_same]
    exact fun entry member => (same_received_iff entry).mpr (zero entry member)

def plainEntry (area : Nat) : DataEntry :=
  { (default : DataEntry) with data := [1, 0, 65], hasMerged := true, area }

theorem entries_back_plain : ∃ back,
    (decodeEntries 2).run ([plainEntry 0, plainEntry 0].flatMap encodeEntry ++ [9]) =
        .done back [9] ∧
      List.Forall₂ SameEntry back [plainEntry 0, plainEntry 0] := by
  have ranged : ∀ entry ∈ [plainEntry 0, plainEntry 0], Ranged entry := by
    intro entry member
    have isPlain : entry = plainEntry 0 := by simpa using member
    rw [isPlain]
    exact ⟨show 3 < 2147483648 by decide, by decide, show 0 < UInt16.size by decide⟩
  apply (entries_back_iff [plainEntry 0, plainEntry 0] [9] ranged).mpr
  decide

/-- The same key in area 1: the area does not come back. -/
theorem entry_area_lost :
    decodeEntry.run (encodeEntry (plainEntry 1)) = .done (plainEntry 0) [] ∧
      (plainEntry 0).area ≠ (plainEntry 1).area := by
  decide +kernel

end Tair.Packets
