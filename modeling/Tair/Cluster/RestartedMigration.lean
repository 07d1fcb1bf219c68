/-
A data server that starts again in the middle of a migration. Every bucket whose row is not the
one of the published table counts as handed over.
-/

import Tair.DataServer.MigrationWork
import Tair.Packets.HeartbeatReply

namespace Tair

open Tair.Library Tair.Common Tair.ConfigServer Tair.DataServer Tair.DataServer.TableManager

variable {shape : ConfigServer.Shape} {s m d : FlatTable shape} {manager : TableManager}

def TablesFit (shape : ConfigServer.Shape) : Prop :=
  shape.bucketCount * shape.copyCount * 8 * 3 + 36 < 2 ^ 32

def rowEntries (m : FlatTable shape) (idx : shape.Bucket) : List UInt64 :=
  UInt64.ofNat idx.val :: shape.lines.map fun line => m.get line idx

def markDiffering (s m : FlatTable shape) (done : DoneSet) (idx : shape.Bucket) : DoneSet :=
  if ∃ line, m.get line idx ≠ s.get line idx then done.setIfInBounds idx.val true else done

theorem migratedInfo_eq (group : GroupInfo shape) (serverId : UInt64) :
    group.migratedInfo serverId =
      (shape.buckets.filter fun idx => group.hashTable.get shape.master idx = serverId).flatMap
        (rowEntries group.mHashTable) := by
  unfold GroupInfo.migratedInfo
  induction shape.buckets with
  | nil => rfl
  | cons idx rest ih =>
    rw [List.flatMap_cons, ih]
    by_cases own : group.hashTable.get shape.master idx = serverId
    · rw [if_pos own, List.filter_cons_of_pos (by simpa using own), List.flatMap_cons]
      rfl
    · rw [if_neg own, List.filter_cons_of_neg (by simpa using own), List.nil_append]

theorem bucket_small (fits : TablesFit shape) (idx : shape.Bucket) : idx.val < 2 ^ 31 := by
  have copies := Nat.le_mul_of_pos_right shape.bucketCount shape.copyPositive
  have inside := idx.isLt
  unfold TablesFit at fits
  omega

theorem bucketOf_ofNat (fits : TablesFit shape) (idx : shape.Bucket) :
    bucketOf (UInt64.ofNat idx.val) = .ok idx.val := by
  have small := bucket_small fits idx
  have value : (UInt64.ofNat idx.val).toNat = idx.val :=
    UInt64.toNat_ofNat_of_lt (small.trans (by decide))
  have word : idx.val % 2 ^ 32 = idx.val := Nat.mod_eq_of_lt (small.trans (by decide))
  rw [bucketOf, value, word, if_pos small]

theorem hasMigrated_row (sized : TableManager.Sized shape manager) {info : Array UInt64}
    {before behind : List UInt64} {idx : shape.Bucket}
    (listed : info.toList = before ++ (rowEntries m idx ++ behind)) :
    manager.hasMigrated (joined s d) info before.length idx.val =
      .ok (decide (∃ line, m.get line idx ≠ s.get line idx)) := by
  unfold hasMigrated
  rw [sized.copies, sized.buckets]
  refine anyM_lines fun line => ?_
  have current : readAt info (before.length + 1 + line.val) = .ok (m.get line idx) := by
    have found : info[before.length + 1 + line.val]? = some (m.get line idx) := by
      rw [← Array.getElem?_toList, listed, Nat.add_assoc, Nat.add_comm 1,
        List.getElem?_append_right (Nat.le_add_right _ _), Nat.add_sub_cancel_left, rowEntries,
        List.cons_append, List.getElem?_cons_succ,
        List.getElem?_append_left (by simp [Shape.lines]), List.getElem?_map]
      simp [Shape.lines]
    unfold readAt
    rw [found]
  have source := readAt_source s d line idx
  rw [Nat.mul_comm] at source
  rw [current, source]
  rfl

@[simp]
theorem size_markDiffering (s m : FlatTable shape) (done : DoneSet) (idx : shape.Bucket) :
    (markDiffering s m done idx).size = done.size := by
  rw [markDiffering]
  split_ifs
  · exact Array.size_setIfInBounds
  · rfl

theorem initFrom_rows (fits : TablesFit shape) (sized : TableManager.Sized shape manager)
    {info : Array UInt64} {turns : Nat} {before : List UInt64} {buckets : List shape.Bucket}
    {done : DoneSet} (listed : info.toList = before ++ buckets.flatMap (rowEntries m))
    (enough : buckets.length ≤ turns) (room : done.size = shape.bucketCount) :
    manager.initFrom (joined s d) info turns before.length done =
      .ok (buckets.foldl (markDiffering s m) done) := by
  induction buckets generalizing before turns done with
  | nil =>
    cases turns with
    | zero => rfl
    | succ turns =>
      have past : ¬before.length < info.size := by
        rw [← Array.length_toList, listed, List.flatMap_nil, List.append_nil]
        exact Nat.lt_irrefl _
      rw [initFrom, if_neg past]
      rfl
  | cons idx rest ih =>
    obtain ⟨turns, rfl⟩ : ∃ fewer, turns = fewer + 1 :=
      Nat.exists_eq_succ_of_ne_zero (by rw [List.length_cons] at enough; omega)
    rw [List.flatMap_cons] at listed
    have number : readAt info before.length = .ok (UInt64.ofNat idx.val) := by
      have found : info[before.length]? = some (UInt64.ofNat idx.val) := by
        rw [← Array.getElem?_toList, listed, List.getElem?_append_right (Nat.le_refl _),
          Nat.sub_self]
        rfl
      unfold readAt
      rw [found]
    have inside : before.length < info.size := by
      rw [← Array.length_toList, listed, List.length_append, rowEntries, List.cons_append,
        List.length_cons]
      omega
    have more : before.length + 1 + manager.copyCount =
        (before ++ rowEntries m idx).length := by
      rw [List.length_append, rowEntries, List.length_cons, List.length_map, sized.copies]
      simp only [Shape.lines, List.length_finRange]
      omega
    rw [← List.append_assoc] at listed
    have later := ih listed (Nat.le_of_succ_le_succ enough)
      ((size_markDiffering s m done idx).trans room)
    rw [initFrom, if_pos inside, number]
    change (bucketOf (UInt64.ofNat idx.val) >>= fun bucket => _) = _
    rw [bucketOf_ofNat fits]
    change (manager.hasMigrated (joined s d) info before.length idx.val >>= fun migrated => _) = _
    rw [hasMigrated_row sized (listed.trans (List.append_assoc ..))]
    rw [List.foldl_cons, ← later, ← more]
    by_cases ne : ∃ line, m.get line idx ≠ s.get line idx
    · have marks : done.mark idx.val = .ok (markDiffering s m done idx) := by
        rw [DoneSet.mark, if_pos (room.symm ▸ idx.isLt), markDiffering, if_pos ne]
      rw [decide_eq_true ne]
      change (done.mark idx.val >>= fun marked => _) = _
      rw [marks]
      rfl
    · rw [decide_eq_false ne, markDiffering, if_neg ne]
      rfl

theorem foldl_marks (buckets : List shape.Bucket) {done : DoneSet}
    (room : done.size = shape.bucketCount) (bucket : Nat) :
    (buckets.foldl (markDiffering s m) done)[bucket]? = some true ↔ done[bucket]? = some true ∨
      ∃ idx ∈ buckets, idx.val = bucket ∧ ∃ line, m.get line idx ≠ s.get line idx := by
  induction buckets generalizing done with
  | nil => simp
  | cons idx rest ih =>
    rw [List.foldl_cons, ih ((size_markDiffering s m done idx).trans room), markDiffering]
    by_cases ne : ∃ line, m.get line idx ≠ s.get line idx
    · rw [if_pos ne, Array.getElem?_setIfInBounds, List.exists_mem_cons_iff, ← or_assoc]
      refine or_congr_left ?_
      by_cases here : idx.val = bucket
      · rw [if_pos here, if_pos (room.symm ▸ idx.isLt)]
        exact iff_of_true rfl (.inr ⟨here, ne⟩)
      · rw [if_neg here]
        simp [here]
    · rw [if_neg ne, List.exists_mem_cons_iff]
      simp only [ne, and_false, false_or]

/-! ### The restart -/

/-- The list of a server gets through to the loop, which sets the bits of exactly those buckets
that have moved away from the row they have in the published table. -/
def Recovered (group : GroupInfo shape) (serverId : UInt64) (reply : Packets.HeartbeatReply)
    (manager : TableManager) (more : List UInt8) : Prop :=
  ∃ bytes done, reply.encode = .ok bytes ∧
    Packets.Carries ((Packets.responseHeartbeat.decode bytes.length).run (bytes ++ more)) more
      (group.migratedInfo serverId) ∧
    manager.initMigrateDoneSet (Array.replicate shape.bucketCount false)
      (group.migratedInfo serverId).toArray = .ok done ∧
    ∀ bucket, done[bucket]? = some true ↔ ∃ idx : shape.Bucket, idx.val = bucket ∧
      group.hashTable.get shape.master idx = serverId ∧
      ∃ line, group.mHashTable.get line idx ≠ group.hashTable.get line idx

structure Answers (group : GroupInfo shape) (serverId : UInt64)
    (reply : Packets.HeartbeatReply) : Prop where
  info : reply.migratedInfo = group.migratedInfo serverId
  copies : reply.copyCount = 0 ∨ reply.copyCount = UInt32.ofNat shape.copyCount

variable {group : GroupInfo shape} {serverId : UInt64} {reply : Packets.HeartbeatReply}

theorem length_rows (buckets : List shape.Bucket) :
    (buckets.flatMap (rowEntries m)).length = buckets.length * (shape.copyCount + 1) := by
  have row (idx : shape.Bucket) : (rowEntries m idx).length = shape.copyCount + 1 := by
    simp [rowEntries, Shape.lines]
  rw [List.length_flatMap]
  simp only [row, List.map_const', List.sum_replicate, smul_eq_mul]

theorem Answers.length (answers : Answers group serverId reply) :
    ∃ count ≤ shape.bucketCount, reply.migratedInfo.length = count * (shape.copyCount + 1) := by
  rw [answers.info, migratedInfo_eq, length_rows]
  refine ⟨_, (List.length_filter_le _ _).trans_eq ?_, rfl⟩
  exact List.length_finRange

theorem TablesFit.product (fits : TablesFit shape) :
    shape.bucketCount * (shape.copyCount + 1) < 2147483648 ∧ shape.copyCount < 2147483648 := by
  have buckets := Nat.le_mul_of_pos_right shape.bucketCount shape.copyPositive
  have copies := Nat.le_mul_of_pos_left shape.copyCount shape.bucketPositive
  unfold TablesFit at fits
  rw [Nat.mul_succ]
  omega

section

variable (answers : Answers group serverId reply) (fits : TablesFit shape)

include answers fits

theorem Answers.few : reply.migratedInfo.length < 2147483648 := by
  obtain ⟨count, small, length⟩ := answers.length
  rw [length]
  exact (Nat.mul_le_mul_right _ small).trans_lt fits.product.1

theorem Answers.copies_succ :
    (reply.copyCount + 1).toNat = 1 ∨ (reply.copyCount + 1).toNat = shape.copyCount + 1 := by
  have small := fits.product.2
  rcases answers.copies with zero | copies
  · rw [zero]
    exact .inl rfl
  · have same : (UInt32.ofNat shape.copyCount).toNat = shape.copyCount :=
      UInt32.toNat_ofNat_of_lt (small.trans (by decide))
    rw [copies, UInt32.toNat_add, same]
    exact .inr (Nat.mod_eq_of_lt (Nat.lt_of_le_of_lt small (by decide)))

theorem Answers.encode : reply.encode = .ok reply.body := by
  obtain ⟨count, -, length⟩ := answers.length
  have whole : reply.migratedInfo.length % (reply.copyCount + 1).toNat = 0 := by
    rcases answers.copies_succ fits with one | copies
    · rw [one, Nat.mod_one]
    · rw [copies, length, Nat.mul_mod_left]
  rw [Packets.HeartbeatReply.encode, if_neg (fun both => both.2 whole)]

end

theorem migratedInfo_marks (fits : TablesFit shape) (sized : TableManager.Sized shape manager)
    (table : manager.serverTable = some (joined group.hashTable d)) (serverId : UInt64) :
    ∃ done, manager.initMigrateDoneSet (Array.replicate shape.bucketCount false)
        (group.migratedInfo serverId).toArray = .ok done ∧
      ∀ bucket, done[bucket]? = some true ↔ ∃ idx : shape.Bucket, idx.val = bucket ∧
        group.hashTable.get shape.master idx = serverId ∧
        ∃ line, group.mHashTable.get line idx ≠ group.hashTable.get line idx := by
  let own := shape.buckets.filter fun idx => group.hashTable.get shape.master idx = serverId
  have enough : own.length ≤ (group.migratedInfo serverId).length := by
    rw [migratedInfo_eq, length_rows]
    exact Nat.le_mul_of_pos_right _ (Nat.succ_pos _)
  have loop := @initFrom_rows shape group.hashTable group.mHashTable d manager fits sized
    (group.migratedInfo serverId).toArray _ [] own _ (migratedInfo_eq group serverId) enough
    (Array.size_replicate (v := false))
  have ended : manager.initMigrateDoneSet (Array.replicate shape.bucketCount false)
      (group.migratedInfo serverId).toArray = .ok (own.foldl
        (markDiffering group.hashTable group.mHashTable)
        (Array.replicate shape.bucketCount false)) := by
    unfold initMigrateDoneSet getServerTable
    rw [table]
    exact loop
  refine ⟨_, ended, fun bucket => ?_⟩
  have clear : (Array.replicate shape.bucketCount false)[bucket]? ≠ some true := by
    simp [Array.getElem?_replicate]
  rw [foldl_marks own Array.size_replicate]
  simp only [clear, false_or, own, List.mem_filter, ConfigServer.Shape.buckets,
    List.mem_finRange, true_and, decide_eq_true_eq]
  exact exists_congr fun idx => and_left_comm

/-- The work that was accepted is found again exactly if the deflated table is not too long for
the packet, or not longer than all that comes behind it. -/
theorem recovered_iff (answers : Answers group serverId reply) (fits : TablesFit shape)
    (sized : TableManager.Sized shape manager)
    (table : manager.serverTable = some (joined group.hashTable d)) (more : List UInt8) :
    Recovered group serverId reply manager more ↔
      reply.hashTable.length ≤ tairMaxDataSize ∨
        reply.hashTable.length ≤ reply.lengthBehind + more.length := by
  have copies : reply.copyCount ≠ 0xFFFFFFFF := by
    intro last
    have succ := answers.copies_succ fits
    rw [last] at succ
    rcases succ with one | copies
    · cases one
    · cases copies
  rw [← Packets.HeartbeatReply.decode_iff (answers.few fits) copies more, answers.info]
  constructor
  · rintro ⟨bytes, done, encoded, carries, -⟩
    rw [answers.encode fits] at encoded
    cases encoded
    exact carries
  · intro carries
    obtain ⟨done, marks, exact⟩ := migratedInfo_marks fits sized table serverId
    exact ⟨_, done, answers.encode fits, carries, marks, exact⟩

def spreadShape (last : Nat) : ConfigServer.Shape := ⟨last + 1, 1, Nat.succ_pos last, Nat.one_pos⟩

def spreadGroup (last : Nat) : GroupInfo (spreadShape last) :=
  { GroupInfo.atRest 2 fun _ idx => UInt64.ofNat (idx.val + 2) with
    hashTable := Grid.ofFn fun _ idx => UInt64.ofNat (idx.val + 1)
    migrateBlockCount := 0 }

def spreadReply (last : Nat) (length : Fin 2147483648) : Packets.HeartbeatReply where
  clientVersion := 0
  serverVersion := 11
  bucketCount := UInt32.ofNat (last + 1)
  copyCount := 1
  downSlaveConfigServer := 0
  dataNeedMove := 1
  hashTable := List.replicate length 0
  groupName := List.replicate 64 0
  pluginsVersion := 0
  pluginsDllNames := none
  areaCapacityVersion := 0
  areaCapacityInfo := []
  migratedInfo := (spreadGroup last).migratedInfo 1
  hashTableFits := List.length_replicate.trans_lt length.isLt
  groupNameSize := List.length_replicate
  pluginsFit := Nat.two_pow_pos 31
  areasFit := Nat.two_pow_pos 32

def spreadManager (last : Nat) : TableManager :=
  construct.withTable (joined (spreadGroup last).hashTable (spreadGroup last).dHashTable) 1
    (last + 1)

theorem spread_answers (last : Nat) (length : Fin 2147483648) :
    Answers (spreadGroup last) 1 (spreadReply last length) :=
  ⟨rfl, .inr rfl⟩

theorem recovered_iff_two : Recovered (spreadGroup 1) 1 (spreadReply 1 100) (spreadManager 1) [] :=
  (recovered_iff (spread_answers 1 100) (by unfold TablesFit; decide) ⟨rfl, rfl⟩ rfl []).mpr
    (.inl (by decide))

theorem length_spread {last : Nat} (few : last < 2 ^ 32) :
    ((spreadGroup last).migratedInfo 1).length ≤ 2 := by
  rw [migratedInfo_eq, length_rows]
  refine Nat.mul_le_mul_right 2 (List.Subperm.length_le (?_ : List.Subperm _ [⟨0, last.succ_pos⟩]))
  refine List.subperm_of_subset ((List.nodup_finRange _).filter _) ?_
  intro idx member
  have own := of_decide_eq_true (List.mem_filter.mp member).2
  rw [spreadGroup, Grid.get_ofFn] at own
  have number := congrArg UInt64.toNat own
  rw [UInt64.toNat_ofNat', UInt64.toNat_one] at number
  have inside : idx.val < last + 1 := idx.isLt
  exact List.mem_singleton.mpr (Fin.ext (by change idx.val = 0; omega))

/-- Such a reply is not decoded when the deflated table is longer than a packet may have it. -/
theorem long_refused {last : Nat} {length : Fin 2147483648} (few : last < 2 ^ 27)
    (long : tairMaxDataSize < length.val) :
    ¬Recovered (spreadGroup last) 1 (spreadReply last length) (spreadManager last) [] := by
  rintro ⟨bytes, done, encoded, carries, -⟩
  have answers := spread_answers last length
  have fits : TablesFit (spreadShape last) := by
    change (last + 1) * 1 * 8 * 3 + 36 < 2 ^ 32
    omega
  rw [answers.encode fits] at encoded
  cases encoded
  have short := length_spread (few.trans (by decide))
  have copies : (1 : UInt32) ≠ 0xFFFFFFFF := by decide
  rw [← answers.info] at carries short
  have bound := (Packets.HeartbeatReply.decode_iff (answers.few fits) copies []).mp carries
  have size : (spreadReply last length).hashTable.length = length.val := List.length_replicate
  have behind : (spreadReply last length).lengthBehind =
      64 + 0 + 12 * 0 + 8 * (spreadReply last length).migratedInfo.length + 20 := rfl
  rw [size, behind, List.length_nil] at bound
  unfold tairMaxDataSize at long bound
  omega

/-- A million buckets. -/
theorem long_table_refused :
    ¬Recovered (spreadGroup 999999) 1 (spreadReply 999999 1000001) (spreadManager 999999) [] :=
  long_refused (by decide) (by decide)

end Tair
