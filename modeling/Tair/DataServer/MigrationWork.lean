/-
The config server and the data servers find the same migration work. One side compares masters and
sets of slaves, the other looks for new copies; for rows with distinct copies this comes to the
same buckets.
-/

import Tair.ConfigServer.Heartbeat
import Tair.ConfigServer.MigrationCounts
import Tair.DataServer.TableManager

namespace Tair.DataServer

open Std Tair.Library Tair.ConfigServer

variable {shape : Shape}

/-! ### Two tables in a row -/

private theorem length_toList (table : FlatTable shape) :
    table.toList.length = shape.copyCount * shape.bucketCount :=
  table.cells.length_toList

variable (s d : FlatTable shape)

theorem size_joined :
    (joined s d).size =
      shape.copyCount * shape.bucketCount + shape.copyCount * shape.bucketCount := by
  unfold joined
  rw [List.size_toArray, List.length_append, length_toList, length_toList]

private theorem getElem?_toList (table : FlatTable shape) (line : shape.Line) (idx : shape.Bucket) :
    table.toList[line.val * shape.bucketCount + idx.val]? = some (table.get line idx) := by
  have inside : line.val * shape.bucketCount + idx.val < table.toList.length := by
    rw [length_toList]
    exact Grid.offset_lt line idx
  rw [List.getElem?_eq_getElem inside]
  rfl

theorem readAt_source (line : shape.Line) (idx : shape.Bucket) :
    readAt (joined s d) (idx.val + shape.bucketCount * line.val) = .ok (s.get line idx) := by
  have found : (joined s d)[idx.val + shape.bucketCount * line.val]? = some (s.get line idx) := by
    unfold joined
    rw [List.getElem?_toArray, Nat.add_comm, Nat.mul_comm, List.getElem?_append_left,
      getElem?_toList]
    rw [length_toList]
    exact Grid.offset_lt line idx
  unfold readAt
  rw [found]

theorem readAt_dest (line : shape.Line) (idx : shape.Bucket) :
    readAt (joined s d)
        (shape.bucketCount * shape.copyCount + (idx.val + shape.bucketCount * line.val)) =
      .ok (d.get line idx) := by
  have found : (joined s d)[shape.bucketCount * shape.copyCount +
      (idx.val + shape.bucketCount * line.val)]? = some (d.get line idx) := by
    unfold joined
    rw [List.getElem?_toArray, Nat.mul_comm shape.bucketCount shape.copyCount, ← length_toList s,
      List.getElem?_append_right (Nat.le_add_right _ _), Nat.add_sub_cancel_left, Nat.add_comm,
      Nat.mul_comm, getElem?_toList]
  unfold readAt
  rw [found]

theorem readAt_master (idx : shape.Bucket) :
    readAt (joined s d) idx.val = .ok (s.get shape.master idx) :=
  readAt_source s d shape.master idx

/-! ### One bucket -/

/-- A data server has to migrate a bucket of its own when somebody is new in its row,
or when it gets another master. -/
def NeedsMove (idx : shape.Bucket) : Prop :=
  (∃ line, ∀ other, d.get line idx ≠ s.get other idx) ∨
    s.get shape.master idx ≠ d.get shape.master idx

/-- Distinct copies make the two conditions agree: a slave that is new among the
slaves can then not be the master. -/
theorem needsMove_iff {s d : FlatTable shape} {idx : shape.Bucket}
    (apart : Function.Injective (fun line => d.get line idx)) :
    NeedsMove s d idx ↔ migrateThisBucket s d idx = true := by
  rw [migrateThisBucket_iff]
  constructor
  · rintro (⟨line, new⟩ | changed)
    · by_cases isMaster : line = shape.master
      · left
        rw [isMaster] at new
        exact (new shape.master).symm
      · exact Or.inr ⟨line, isMaster, fun other _ => new other⟩
    · exact Or.inl changed
  · rintro (changed | ⟨line, slave, new⟩)
    · exact Or.inr changed
    · by_cases same : s.get shape.master idx = d.get shape.master idx
      · refine Or.inl ⟨line, fun other held => ?_⟩
        by_cases isMaster : other = shape.master
        · rw [isMaster, same] at held
          exact slave (apart held)
        · exact new other isMaster held
      · exact Or.inr same

namespace TableManager

structure Sized (shape : Shape) (manager : TableManager) : Prop where
  copies : manager.copyCount = shape.copyCount
  buckets : manager.bucketCount = shape.bucketCount

variable {manager : TableManager}

theorem Sized.hashTableSize (sized : Sized shape manager) :
    manager.hashTableSize = shape.bucketCount * shape.copyCount := by
  unfold TableManager.hashTableSize
  rw [sized.copies, sized.buckets]

/-- A loop over the copies of a bucket that looks for one of a kind. -/
theorem anyM_lines {test : Nat → Except Fault Bool} {P : shape.Line → Prop} [DecidablePred P]
    (tests : ∀ line : shape.Line, test line.val = .ok (decide (P line))) :
    (List.range shape.copyCount).anyM test = .ok (decide (∃ line, P line)) := by
  have tested : ∀ j ∈ List.range shape.copyCount,
      test j = .ok (decide (∃ line : shape.Line, line.val = j ∧ P line)) := by
    intro j member
    rw [tests ⟨j, List.mem_range.mp member⟩]
    refine congrArg Except.ok (decide_eq_decide.mpr ⟨fun holds => ⟨_, rfl, holds⟩, ?_⟩)
    rintro ⟨line, rfl, holds⟩
    exact holds
  rw [Scan.anyM_ok _ tested]
  congr 1
  rw [Bool.eq_iff_iff, List.any_eq_true, decide_eq_true_iff]
  constructor
  · rintro ⟨j, -, found⟩
    obtain ⟨line, -, holds⟩ := of_decide_eq_true found
    exact ⟨line, holds⟩
  · rintro ⟨line, holds⟩
    exact ⟨line.val, List.mem_range.mpr line.isLt, decide_eq_true ⟨line, rfl, holds⟩⟩

theorem addMigrate_joined (sized : Sized shape manager) (s d : FlatTable shape)
    (idx : shape.Bucket) (line : shape.Line) (migrates : BucketServerMap) :
    ∃ next, manager.addMigrate (joined s d) idx.val migrates line.val = .ok next ∧
      ∀ key, key ∈ next ↔ key ∈ migrates ∨
        (key = idx.val ∧ ∀ other, d.get line idx ≠ s.get other idx) := by
  have ran : manager.addMigrate (joined s d) idx.val migrates line.val =
      if decide (∃ other, d.get line idx = s.get other idx) = true then .ok migrates
      else .ok (migrates.insert idx.val (migrates.getD idx.val [] ++ [d.get line idx])) := by
    unfold addMigrate
    rw [sized.hashTableSize, sized.buckets, readAt_dest]
    change (manager.holdsCopy (joined s d) idx.val (d.get line idx) >>= fun held => _) = _
    unfold holdsCopy
    rw [sized.copies, sized.buckets, anyM_lines fun other => by rw [readAt_source]; rfl]
    rfl
  by_cases held : ∃ other, d.get line idx = s.get other idx
  · rw [if_pos (decide_eq_true held)] at ran
    obtain ⟨other, same⟩ := held
    refine ⟨migrates, ran, fun key => ⟨Or.inl, ?_⟩⟩
    rintro (member | ⟨-, new⟩)
    · exact member
    · exact absurd same (new other)
  · rw [if_neg (fun wrong => held (of_decide_eq_true wrong))] at ran
    refine ⟨_, ran, fun key => ?_⟩
    rw [TreeMap.mem_insert, LawfulEqCmp.compare_eq_iff_eq]
    constructor
    · rintro (same | member)
      · exact Or.inr ⟨same.symm, fun other same => held ⟨other, same⟩⟩
      · exact Or.inl member
    · rintro (member | ⟨same, -⟩)
      · exact Or.inr member
      · exact Or.inl same.symm

private theorem addMigrates_joined (sized : Sized shape manager) (s d : FlatTable shape)
    (idx : shape.Bucket) :
    ∃ listed, (List.range shape.copyCount).foldlM (manager.addMigrate (joined s d) idx.val)
        manager.migrates = .ok listed ∧
      ∀ key, key ∈ listed ↔ key ∈ manager.migrates ∨
        (key = idx.val ∧ ∃ line, ∀ other, d.get line idx ≠ s.get other idx) := by
  have loop : ∃ listed, (List.range shape.copyCount).foldlM
      (manager.addMigrate (joined s d) idx.val) manager.migrates = .ok listed ∧
      ∀ key, key ∈ listed ↔ key ∈ manager.migrates ∨
        (key = idx.val ∧ ∃ line : shape.Line, line.val ∈ List.range shape.copyCount ∧
          ∀ other, d.get line idx ≠ s.get other idx) := by
    apply Scan.foldlM_total (fun before migrates => ∀ key, key ∈ migrates ↔
      key ∈ manager.migrates ∨ (key = idx.val ∧ ∃ line : shape.Line, line.val ∈ before ∧
        ∀ other, d.get line idx ≠ s.get other idx))
    · simp
    · intro before j after migrates split known
      have inside : j < shape.copyCount := by
        apply List.mem_range.mp
        rw [split]
        exact List.mem_append_right _ List.mem_cons_self
      obtain ⟨next, added, meaning⟩ := addMigrate_joined sized s d idx ⟨j, inside⟩ migrates
      refine ⟨next, added, fun key => ?_⟩
      rw [meaning, known, or_assoc, ← and_or_left]
      refine or_congr_right (and_congr_right (fun _ => ?_))
      constructor
      · rintro (⟨line, prior, new⟩ | new)
        · exact ⟨line, List.mem_append_left _ prior, new⟩
        · exact ⟨⟨j, inside⟩, List.mem_append_right _ (List.mem_singleton.mpr rfl), new⟩
      · rintro ⟨line, member, new⟩
        rcases List.mem_append.mp member with prior | last
        · exact Or.inl ⟨line, prior, new⟩
        · have same : line = ⟨j, inside⟩ := Fin.ext (List.mem_singleton.mp last)
          exact Or.inr (same ▸ new)
  obtain ⟨listed, done, meaning⟩ := loop
  refine ⟨listed, done, fun key => ?_⟩
  rw [meaning]
  simp only [List.mem_range, Fin.is_lt, true_and]

theorem calculateMigrates_joined (sized : Sized shape manager) (s d : FlatTable shape)
    (idx : shape.Bucket) :
    ∃ next, manager.calculateMigrates (joined s d) idx.val = .ok next ∧
      ∀ key, key ∈ next ↔ key ∈ manager.migrates ∨ (key = idx.val ∧ NeedsMove s d idx) := by
  obtain ⟨listed, loop, meaning⟩ := addMigrates_joined sized s d idx
  have ran : manager.calculateMigrates (joined s d) idx.val =
      if listed.contains idx.val = true then .ok listed
      else if s.get shape.master idx ≠ d.get shape.master idx then .ok (listed.insert idx.val [])
      else .ok listed := by
    unfold calculateMigrates
    rw [sized.copies, loop, sized.hashTableSize]
    change (if listed.contains idx.val = true then _ else
      (readAt (joined s d) idx.val >>= fun source => _)) = _
    rw [readAt_master]
    change (if listed.contains idx.val = true then _ else
      (readAt (joined s d) (shape.bucketCount * shape.copyCount + (idx.val +
        shape.bucketCount * shape.master.val)) >>= fun dest => _)) = _
    rw [readAt_dest]
    rfl
  unfold NeedsMove
  by_cases found : listed.contains idx.val = true
  · rw [if_pos found] at ran
    refine ⟨listed, ran, fun key => ?_⟩
    rw [meaning]
    constructor
    · rintro (member | ⟨same, new⟩)
      · exact Or.inl member
      · exact Or.inr ⟨same, Or.inl new⟩
    · rintro (member | ⟨same, -⟩)
      · exact Or.inl member
      · rw [same]
        exact (meaning _).mp (TreeMap.mem_iff_contains.mpr found)
  · have old : ¬∃ line, ∀ other, d.get line idx ≠ s.get other idx := fun new =>
      found (TreeMap.mem_iff_contains.mp ((meaning _).mpr (Or.inr ⟨rfl, new⟩)))
    rw [if_neg found] at ran
    by_cases changed : s.get shape.master idx ≠ d.get shape.master idx
    · rw [if_pos changed] at ran
      refine ⟨_, ran, fun key => ?_⟩
      rw [TreeMap.mem_insert, LawfulEqCmp.compare_eq_iff_eq, meaning]
      constructor
      · rintro (same | member | ⟨-, new⟩)
        · exact Or.inr ⟨same.symm, Or.inr changed⟩
        · exact Or.inl member
        · exact absurd new old
      · rintro (member | ⟨same, -⟩)
        · exact Or.inr (Or.inl member)
        · exact Or.inl same.symm
    · rw [if_neg changed] at ran
      refine ⟨listed, ran, fun key => ?_⟩
      rw [meaning]
      refine or_congr_right (and_congr_right (fun _ => ⟨Or.inl, ?_⟩))
      rintro (new | wrong)
      · exact new
      · exact absurd wrong changed

/-! ### The whole table -/

theorem readAt_inside {table : Array UInt64} {index : Nat} (inside : index < table.size) :
    ∃ entry, readAt table index = .ok entry := by
  unfold readAt
  rw [Array.getElem?_eq_getElem inside]
  exact ⟨_, rfl⟩

variable (s d : FlatTable shape)

def Listed (localIp : UInt64) (positions : List Nat) (key : Nat) : Prop :=
  ∃ idx : shape.Bucket, idx.val ∈ positions ∧ key = idx.val ∧
    s.get shape.master idx = localIp ∧ NeedsMove s d idx

private theorem takeEntry_joined (ip : UInt64) {state : TableManager × List Nat}
    (sized : Sized shape state.1) {i : Nat} (inside : i < shape.bucketCount * shape.copyCount) :
    ∃ next, takeEntry ip (joined s d) state i = .ok next ∧ Sized shape next.1 ∧
      ∀ key, key ∈ next.1.migrates ↔
        key ∈ state.1.migrates ∨ Listed s d ip [i] key := by
  have double := size_joined s d
  rw [Nat.mul_comm] at inside
  obtain ⟨entry, read⟩ : ∃ entry, readAt (joined s d) i = .ok entry :=
    readAt_inside (by omega)
  have seen : Sized shape { state.1 with
      availableServerIds := state.1.availableServerIds.insert entry } :=
    ⟨sized.copies, sized.buckets⟩
  have unlisted : (i < shape.bucketCount → entry ≠ ip) → ∀ key, ¬Listed s d ip [i] key := by
    rintro other key ⟨idx, here, -, master, -⟩
    have same : i = idx.val := (List.mem_singleton.mp here).symm
    rw [same, readAt_master, master] at read
    exact other (same ▸ idx.isLt) (Except.ok.inj read).symm
  unfold takeEntry
  rw [read]
  by_cases other : entry ≠ ip
  · refine ⟨_, if_pos other, seen, fun key => ?_⟩
    exact (or_iff_left (unlisted (fun _ => other) key)).symm
  · have own := not_not.mp other
    by_cases first : i < shape.bucketCount
    · obtain ⟨migrates, found, meaning⟩ := calculateMigrates_joined seen s d ⟨i, first⟩
      refine ⟨({ state.1 with
        availableServerIds := state.1.availableServerIds.insert entry
        migrates := migrates }, state.2 ++ [i % state.1.bucketCount]), ?_,
        ⟨sized.copies, sized.buckets⟩, fun key => ?_⟩
      · change (if entry ≠ ip then _ else
          if i < state.1.bucketCount ∧ (joined s d).size > state.1.hashTableSize then
            (calculateMigrates _ (joined s d) i >>= fun migrates => _) else _) = _
        have pos : 0 < shape.copyCount * shape.bucketCount := by omega
        rw [if_neg other, if_pos ⟨sized.buckets ▸ first, by
          rw [sized.hashTableSize, Nat.mul_comm, double]; omega⟩, found]
        rfl
      · change key ∈ migrates ↔ _
        rw [meaning]
        refine or_congr_right ⟨?_, ?_⟩
        · rintro ⟨same, needed⟩
          refine ⟨⟨i, first⟩, List.mem_singleton.mpr rfl, same, ?_, needed⟩
          rw [readAt_master s d ⟨i, first⟩] at read
          rw [← own]
          exact Except.ok.inj read
        · rintro ⟨idx, here, same, -, needed⟩
          have position : idx = ⟨i, first⟩ := Fin.ext (List.mem_singleton.mp here)
          rw [position] at same needed
          exact ⟨same, needed⟩
    · refine ⟨({ state.1 with
        availableServerIds := state.1.availableServerIds.insert entry },
        state.2 ++ [i % state.1.bucketCount]), ?_, seen, fun key => ?_⟩
      · change (if entry ≠ ip then _ else
          if i < state.1.bucketCount ∧ (joined s d).size > state.1.hashTableSize then _ else _) = _
        rw [if_neg other, if_neg (fun both => first (sized.buckets ▸ both.1))]
        rfl
      · exact (or_iff_left (unlisted (fun small => absurd small first) key)).symm

private theorem takeEntries_joined (ip : UInt64) (sized : Sized shape manager) :
    ∃ final, manager.takeEntries ip (joined s d) = .ok final ∧ Sized shape final.1 ∧
      ∀ key, key ∈ final.1.migrates ↔
        key ∈ manager.migrates ∨ Listed s d ip (List.range manager.hashTableSize) key := by
  apply Scan.foldlM_total (fun (before : List Nat) (state : TableManager × List Nat) =>
    Sized shape state.1 ∧
      ∀ key, key ∈ state.1.migrates ↔ key ∈ manager.migrates ∨ Listed s d ip before key)
  · refine ⟨sized, fun key => (or_iff_left ?_).symm⟩
    rintro ⟨idx, bad, -⟩
    exact absurd bad List.not_mem_nil
  · intro before i after state split known
    have inside : i < shape.bucketCount * shape.copyCount := by
      rw [← sized.hashTableSize]
      apply List.mem_range.mp
      rw [split]
      exact List.mem_append_right _ List.mem_cons_self
    obtain ⟨next, taken, sized, meaning⟩ := takeEntry_joined s d ip known.1 inside
    refine ⟨next, taken, sized, fun key => ?_⟩
    rw [meaning, known.2, or_assoc]
    refine or_congr_right ⟨?_, ?_⟩
    · rintro (⟨idx, prior, rest⟩ | ⟨idx, last, rest⟩)
      · exact ⟨idx, List.mem_append_left _ prior, rest⟩
      · exact ⟨idx, List.mem_append_right _ last, rest⟩
    · rintro ⟨idx, member, rest⟩
      rcases List.mem_append.mp member with prior | last
      · exact Or.inl ⟨idx, prior, rest⟩
      · exact Or.inr ⟨idx, last, rest⟩

private theorem padEntries_joined (ip : UInt64) (sized : Sized shape manager) :
    ∃ final, manager.padEntries ip (joined s d) = .ok final ∧
      final.migrates = manager.migrates := by
  have double := size_joined s d
  have pos : 0 < shape.copyCount * shape.bucketCount :=
    Nat.mul_pos shape.copyPositive shape.bucketPositive
  unfold padEntries
  rw [if_pos (by rw [sized.hashTableSize, Nat.mul_comm, double]; omega)]
  apply Scan.foldlM_total (fun _ (state : TableManager) => state.migrates = manager.migrates)
  · rfl
  · intro before i after state split same
    have inside : i < (joined s d).size := by
      have member : i ∈ List.range' manager.hashTableSize manager.hashTableSize := by
        rw [split]
        exact List.mem_append_right _ List.mem_cons_self
      have bounds := List.mem_range'_1.mp member
      rw [sized.hashTableSize, Nat.mul_comm] at bounds
      omega
    obtain ⟨entry, read⟩ := readAt_inside inside
    unfold padEntry
    rw [read]
    by_cases own : entry = ip
    · exact ⟨_, if_pos own, same⟩
    · exact ⟨_, if_neg own, same⟩

/-- A table of the config server is taken without a fault, and a data server finds
its own buckets that have to move. -/
theorem doUpdateTable_joined (manager : TableManager) (s d : FlatTable shape) (ip : UInt64)
    (version : UInt32) :
    ∃ updated, manager.doUpdateTable ip (joined s d) version shape.copyCount
        shape.bucketCount = .ok updated ∧
      ∀ key, key ∈ updated.migrates ↔ ∃ idx : shape.Bucket, key = idx.val ∧
        s.get shape.master idx = ip ∧ NeedsMove s d idx := by
  have sized : Sized shape (manager.withTable (joined s d) shape.copyCount shape.bucketCount) :=
    ⟨rfl, rfl⟩
  have fits : ¬(shape.bucketCount * shape.copyCount = 0 ∨
      (joined s d).size % (shape.bucketCount * shape.copyCount) ≠ 0) := by
    have pos := Nat.mul_pos shape.bucketPositive shape.copyPositive
    rw [size_joined, Nat.mul_comm shape.copyCount, Nat.add_mod_right, Nat.mod_self]
    omega
  obtain ⟨⟨taken, holding⟩, loop, takenSized, meaning⟩ := takeEntries_joined s d ip sized
  obtain ⟨padded, padding, kept⟩ := padEntries_joined s d ip takenSized
  refine ⟨{ padded with
    releaseBuckets := calculateReleaseBucket padded.holdingBuckets holding
    holdingBuckets := holding.insertionSort (· ≤ ·)
    tableVersion := version }, ?_, fun key => ?_⟩
  · unfold doUpdateTable
    rw [if_neg fits, loop]
    change (taken.padEntries ip (joined s d) >>= fun padded => _) = _
    rw [padding]
    rfl
  · change key ∈ padded.migrates ↔ _
    rw [kept, meaning]
    constructor
    · rintro (bad | ⟨idx, -, rest⟩)
      · exact absurd bad TreeMap.not_mem_emptyc
      · exact ⟨idx, rest⟩
    · rintro ⟨idx, rest⟩
      refine Or.inr ⟨idx, List.mem_range.mpr ?_, rest⟩
      have bound := idx.isLt
      rw [sized.hashTableSize]
      exact Nat.lt_of_lt_of_le bound (Nat.le_mul_of_pos_right _ shape.copyPositive)

end TableManager

/-! ### Both sides -/

/-- The buckets of one master that the config server counts are the ones this server
lists, and their numbers agree. -/
private theorem listed_iff_counted {s d : FlatTable shape}
    (masters : ∀ idx, s.get shape.master idx ≠ 0)
    (apart : ∀ idx, Function.Injective (fun line => d.get line idx)) {server : UInt64}
    {updated : TableManager}
    (lists : ∀ key, key ∈ updated.migrates ↔ ∃ idx : shape.Bucket, key = idx.val ∧
      s.get shape.master idx = server ∧ NeedsMove s d idx) (key : Nat) :
    key ∈ updated.migrates ↔ ∃ idx ∈ CounterMap.fiber (counted s d)
      (fun idx => s.get shape.master idx) server, key = idx.val := by
  rw [lists]
  refine exists_congr (fun idx => ?_)
  rw [CounterMap.mem_fiber, needsMove_iff (apart idx)]
  unfold counted
  rw [Finset.mem_filter]
  constructor
  · rintro ⟨same, master, moves⟩
    exact ⟨⟨⟨Finset.mem_univ idx, masters idx, moves⟩, master⟩, same⟩
  · rintro ⟨⟨⟨-, -, moves⟩, master⟩, same⟩
    exact ⟨same, master, moves⟩

/-- The config server and the data servers agree on a migration. A bucket is counted
for its master exactly when that server lists it, no server lists a bucket of another,
and the numbers of buckets agree for each server and together. -/
theorem migration_work_agrees {s d : FlatTable shape} (masters : ∀ idx, s.get shape.master idx ≠ 0)
    (distinct : ∀ idx, Function.Injective (fun line => d.get line idx))
    (managers : UInt64 → TableManager) (version : UInt32) :
    ∃ updated : UInt64 → TableManager,
      (∀ server, (managers server).doUpdateTable server (joined s d) version shape.copyCount
        shape.bucketCount = .ok (updated server)) ∧
      (∀ idx, (s.get shape.master idx ≠ 0 ∧ migrateThisBucket s d idx = true) ↔
        idx.val ∈ (updated (s.get shape.master idx)).migrates) ∧
      (∀ server key, key ∈ (updated server).migrates →
        ∃ idx : shape.Bucket, key = idx.val ∧ s.get shape.master idx = server) ∧
      (∀ server, (fillMigrateMachine s d).1.getD server 0 =
        ((updated server).migrates.size : Int)) ∧
      (fillMigrateMachine s d).2 =
        ∑ server ∈ Finset.univ.image (fun idx => s.get shape.master idx),
          ((updated server).migrates.size : Int) := by
  choose updated taken lists using fun server =>
    TableManager.doUpdateTable_joined (managers server) s d server version
  obtain ⟨exact, total⟩ := fillMigrateMachine_exact s d
  have sizes : ∀ server, (updated server).migrates.size =
      (CounterMap.fiber (counted s d) (fun idx => s.get shape.master idx) server).card :=
    fun server => size_eq_card Fin.val_injective
      (listed_iff_counted masters distinct (lists server))
  refine ⟨updated, taken, fun idx => ?_, fun server key listed => ?_, fun server => ?_, ?_⟩
  · rw [lists, and_iff_right (masters idx), ← needsMove_iff (distinct idx)]
    constructor
    · exact fun needed => ⟨idx, rfl, rfl, needed⟩
    · rintro ⟨other, same, -, needed⟩
      rw [Fin.ext same]
      exact needed
  · obtain ⟨idx, same, master, -⟩ := (lists server key).mp listed
    exact ⟨idx, same, master⟩
  · rw [exact.getD, sizes]
  · have fibers := Finset.card_eq_sum_card_fiberwise (s := counted s d)
      (f := fun idx => s.get shape.master idx)
      (t := Finset.univ.image (fun idx => s.get shape.master idx))
      (fun idx _ => Finset.mem_image_of_mem _ (Finset.mem_univ idx))
    rw [total, fibers]
    push_cast
    exact Finset.sum_congr rfl (fun server _ => congrArg Nat.cast (sizes server).symm)

theorem workShape_pos : 0 < 3 := by decide

def workShape : Shape := ⟨3, 2, workShape_pos, Nat.two_pos⟩

def workSource : FlatTable workShape :=
  Grid.ofFn (fun line idx => if line.val = 0 then ![1, 1, 2] idx else ![2, 2, 1] idx)

def workDest : FlatTable workShape :=
  Grid.ofFn (fun line idx => if line.val = 0 then ![3, 1, 2] idx else ![2, 3, 1] idx)

theorem migration_work_agrees_work :
    (fillMigrateMachine workSource workDest).2 = 2 ∧
      ∃ updated : UInt64 → TableManager,
        (∀ server, TableManager.construct.doUpdateTable server (joined workSource workDest) 12 2 3 =
          .ok (updated server)) ∧
        (∀ idx, (workSource.get workShape.master idx ≠ 0 ∧
            migrateThisBucket workSource workDest idx = true) ↔
          idx.val ∈ (updated (workSource.get workShape.master idx)).migrates) ∧
        (∀ server key, key ∈ (updated server).migrates →
          ∃ idx : workShape.Bucket, key = idx.val ∧
            workSource.get workShape.master idx = server) ∧
        (∀ server, (fillMigrateMachine workSource workDest).1.getD server 0 =
          ((updated server).migrates.size : Int)) ∧
        (fillMigrateMachine workSource workDest).2 =
          ∑ server ∈ Finset.univ.image (fun idx => workSource.get workShape.master idx),
            ((updated server).migrates.size : Int) :=
  ⟨by decide +kernel,
    migration_work_agrees (by decide +kernel) (by decide +kernel) (fun _ => .construct) 12⟩

/-! ### Until nothing is left -/

section

variable {group next : GroupInfo shape}

private theorem call_advances {item : GroupInfo.Call shape} (ran : group.call item = .ok next) :
    group.Advances next := by
  cases item with
  | setMigratingHashtable idx id => exact .setMigratingHashtable ran
  | checkMigrateComplete down =>
    obtain ⟨answer, checked, rfl⟩ := ok_of_map ran
    exact .checkMigrateComplete checked
  | hardCheckMigrateComplete =>
    cases ran
    exact .hardCheckMigrateComplete group

private theorem row_stays (advances : group.Advances next) {idx : shape.Bucket}
    (ne : Differs next.mHashTable next.dHashTable idx) :
    Differs group.mHashTable group.dHashTable idx ∧
      next.mHashTable.get shape.master idx = group.mHashTable.get shape.master idx := by
  obtain ⟨line, ne⟩ := ne
  rw [advances.destination] at ne
  rcases advances.rows idx with same | arrived
  · rw [same] at ne
    exact ⟨⟨line, ne⟩, same shape.master⟩
  · exact absurd (arrived line) ne

/-- The published table is the destination when nothing is under way. -/
def Settled (group : GroupInfo shape) : Prop :=
  group.config.dataNeedMove ≠ tairDataNeedMigrate ∨ group.migrateBlockCount = -1 →
    group.hashTable = group.dHashTable

private theorem report_settles (books : group.Bookkeeping) (settled : Settled group)
    {idx : shape.Bucket} {id : UInt64}
    (ran : group.setMigratingHashtable idx.val id = .ok next) :
    Settled next ∧ (group.mHashTable.get shape.master idx = id →
      ¬Differs next.mHashTable next.dHashTable idx) := by
  have step := group.setMigratingHashtable_step idx id
  rw [ran] at step
  cases step with
  | stays idle =>
    refine ⟨settled, fun master ne => ?_⟩
    rcases idle with ended | other | same
    · -- No migration is under way, so that no row differs.
      have stopped : group.migrateBlockCount = -1 := of_not_not (of_decide_eq_false ended)
      rcases books.blocks with count | ⟨-, same⟩
      · omega
      · obtain ⟨line, ne⟩ := ne
        rw [same] at ne
        exact ne rfl
    · exact other master
    · exact same ne
  | moves migrating master ne moving lost =>
    refine ⟨fun idle => ?_, fun _ still => ((differs_movedRow _ _ idx idx).mp still).1 rfl⟩
    rcases idle with config | last
    · exact settled (Or.inl config)
    · change group.migrateBlockCount - 1 = -1 at last
      have some : 0 < (differing group.mHashTable group.dHashTable).card :=
        Finset.card_pos.mpr ⟨idx, mem_differing.mpr ne⟩
      rcases books.blocks with count | ⟨stopped, -⟩
      · omega
      · omega

private theorem call_settled (books : group.Bookkeeping) (settled : Settled group)
    {item : GroupInfo.Call shape} (ran : group.call item = .ok next) : Settled next := by
  cases item with
  | setMigratingHashtable idx id => exact (report_settles books settled ran).1
  | checkMigrateComplete down =>
    obtain ⟨answer, checked, rfl⟩ := ok_of_map ran
    unfold GroupInfo.checkMigrateComplete at checked
    split_ifs at checked with idle busy lost wrong
    · cases checked
      exact settled
    · cases checked
      exact settled
    · cases checked
      exact settled
    · cases checked
      exact fun _ => rfl
  | hardCheckMigrateComplete =>
    cases ran
    unfold GroupInfo.hardCheckMigrateComplete
    split_ifs with same
    · exact settled
    · exact settled

/-- Reports and checks in any order leave only buckets different that their master has not
reported. -/
private theorem worked_off (books : group.Bookkeeping) (settled : Settled group)
    (calls : List (GroupInfo.Call shape)) :
    ∃ final, calls.foldlM GroupInfo.call group = .ok final ∧ final.Bookkeeping ∧ Settled final ∧
      group.Advances final ∧ ∀ idx, Differs final.mHashTable final.dHashTable idx →
        .setMigratingHashtable idx (group.mHashTable.get shape.master idx) ∉ calls := by
  apply Scan.foldlM_total (fun (before : List (GroupInfo.Call shape)) state => state.Bookkeeping ∧
    Settled state ∧ group.Advances state ∧ ∀ idx, Differs state.mHashTable state.dHashTable idx →
      .setMigratingHashtable idx (group.mHashTable.get shape.master idx) ∉ before)
  · exact ⟨books, settled, .refl group, fun _ _ => List.not_mem_nil⟩
  · rintro before item - state - ⟨books, settled, advances, left⟩
    obtain ⟨next, ran, kept⟩ := books.call item
    refine ⟨next, ran, kept, call_settled books settled ran, advances.trans (call_advances ran),
      fun idx ne member => ?_⟩
    have differed := (row_stays (call_advances ran) ne).1
    rcases List.mem_append.mp member with earlier | last
    · exact left idx differed earlier
    · rw [← List.mem_singleton.mp last] at ran
      exact (report_settles books settled ran).2 (row_stays advances differed).2 ne

end

/-- A migration that is worked off ends. When every data server has reported every bucket that it
lists for the table of a rebuild, in any order and with any other reports and checks in between,
no row is left to move and the next check publishes the table that was built. -/
theorem migration_ends {group : GroupInfo shape} (produced : group.Produced)
    {managers updated : UInt64 → TableManager} {version : UInt32}
    (taken : ∀ server, (managers server).doUpdateTable server
      (joined group.hashTable group.dHashTable) version shape.copyCount shape.bucketCount =
        .ok (updated server))
    {calls : List (GroupInfo.Call shape)}
    (reported : ∀ server (idx : shape.Bucket), idx.val ∈ (updated server).migrates →
      .setMigratingHashtable idx server ∈ calls) :
    ∃ final, calls.foldlM GroupInfo.call group = .ok final ∧
      final.mHashTable = group.dHashTable ∧ final.migrateMachine.isEmpty = true ∧
      ∀ down, ∃ ended, final.checkMigrateComplete down = .ok (true, ended) ∧
        ended.hashTable = group.dHashTable := by
  obtain ⟨published, unmoved⟩ := produced.published
  have settled : Settled group := by
    rintro (config | stopped)
    · exact published.trans (unmoved config)
    · rcases produced.bookkeeping.blocks with count | ⟨-, same⟩
      · omega
      · exact published.trans same
  obtain ⟨final, ran, books, settled, advances, left⟩ :=
    worked_off produced.bookkeeping settled calls
  -- A bucket that still differs was listed by its master, and so reported.
  have done : differing final.mHashTable final.dHashTable = ∅ := by
    refine Finset.eq_empty_of_forall_notMem (fun idx member => ?_)
    have ne := mem_differing.mp member
    refine left idx ne (reported _ idx ?_)
    obtain ⟨migrates, apart⟩ := produced.migrates (row_stays advances ne).1
    obtain ⟨listing, took, lists⟩ := TableManager.doUpdateTable_joined
      (managers (group.mHashTable.get shape.master idx)) group.hashTable group.dHashTable
      (group.mHashTable.get shape.master idx) version
    rw [taken] at took
    cases took
    rw [lists, published]
    exact ⟨idx, rfl, rfl, (needsMove_iff apart).mpr migrates⟩
  have same := differing_eq_empty.mp done
  have empty := books.machine.isEmpty_iff.mpr done
  refine ⟨final, ran, same.trans advances.destination, empty, fun down => ?_⟩
  unfold GroupInfo.checkMigrateComplete
  split_ifs with idle busy lost wrong
  · exact ⟨final, rfl, (settled idle).trans advances.destination⟩
  · exact ⟨final, rfl, absurd empty (Bool.eq_false_iff.mp busy)⟩
  · exact absurd empty (Bool.eq_false_iff.mp busy)
  · exact absurd same wrong
  · exact ⟨_, rfl, advances.destination⟩

theorem migration_ends_sample :
    GroupInfo.sampleMigrating.migrateBlockCount = 1 ∧
      ∃ final, GroupInfo.sampleCalls.foldlM GroupInfo.call GroupInfo.sampleMigrating = .ok final ∧
        final.mHashTable = GroupInfo.sampleMigrating.dHashTable := by
  choose updated taken lists using fun server => TableManager.doUpdateTable_joined
    .construct GroupInfo.sampleMigrating.hashTable GroupInfo.sampleMigrating.dHashTable server 12
  have only : ∀ idx : sampleShape.Bucket, idx.val ≠ 0 →
      ¬NeedsMove GroupInfo.sampleMigrating.hashTable GroupInfo.sampleMigrating.dHashTable idx := by
    unfold NeedsMove
    decide +kernel
  have master : ∀ idx : sampleShape.Bucket, idx.val = 0 →
      GroupInfo.sampleMigrating.hashTable.get sampleShape.master idx = 1 := by decide +kernel
  have reported : ∀ server (idx : sampleShape.Bucket), idx.val ∈ (updated server).migrates →
      .setMigratingHashtable idx server ∈ GroupInfo.sampleCalls := by
    intro server idx listed
    obtain ⟨other, same, own, needs⟩ := (lists server idx.val).mp listed
    have zero := of_not_not (mt (only other) (not_not_intro needs))
    rw [master other zero] at own
    have first : idx = ⟨0, sampleShape.bucketPositive⟩ := Fin.ext (same.trans zero)
    rw [← own, first]
    exact List.mem_cons_of_mem _ List.mem_cons_self
  obtain ⟨final, ran, arrived, -⟩ :=
    migration_ends GroupInfo.sampleMigrating_produced taken reported
  exact ⟨by decide +kernel, final, ran, arrived⟩

end Tair.DataServer
