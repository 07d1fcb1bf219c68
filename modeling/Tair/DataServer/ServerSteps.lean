/-
What the steps of a data server do to the marks of handed-over buckets, and how
requests for such a bucket are answered.
-/

import Tair.DataServer.TairManager

namespace Tair.DataServer

open Std Tair.Library
open Tair.ConfigServer (Fault ResponseHeartbeat)

/-! ### Tables -/

namespace TableManager

variable {manager next : TableManager}

structure SameTable (manager next : TableManager) : Prop where
  serverTable : next.serverTable = manager.serverTable
  copies : next.copyCount = manager.copyCount
  buckets : next.bucketCount = manager.bucketCount

theorem SameTable.trans {last : TableManager} (first : SameTable manager next)
    (second : SameTable next last) : SameTable manager last :=
  ⟨second.serverTable.trans first.serverTable, second.copies.trans first.copies,
    second.buckets.trans first.buckets⟩

variable {ip : UInt64} {newTable : Array UInt64}

private theorem takeEntry_table {state after : TableManager × List Nat} {i : Nat}
    (taken : takeEntry ip newTable state i = .ok after) : SameTable state.1 after.1 := by
  obtain ⟨entry, -, rest⟩ := ok_of_bind taken
  dsimp only at rest
  split_ifs at rest with other first
  · cases rest
    exact ⟨rfl, rfl, rfl⟩
  · obtain ⟨migrates, -, stored⟩ := ok_of_bind rest
    cases stored
    exact ⟨rfl, rfl, rfl⟩
  · cases rest
    exact ⟨rfl, rfl, rfl⟩

private theorem padEntry_table {i : Nat} (padded : padEntry ip newTable manager i = .ok next) :
    SameTable manager next := by
  obtain ⟨entry, -, rest⟩ := ok_of_bind padded
  dsimp only at rest
  split_ifs at rest with own
  · cases rest
    exact ⟨rfl, rfl, rfl⟩
  · cases rest
    exact ⟨rfl, rfl, rfl⟩

theorem doUpdateTable_table {version : UInt32} {copyCount bucketCount : Nat}
    (updated : manager.doUpdateTable ip newTable version copyCount bucketCount = .ok next) :
    SameTable (manager.withTable newTable copyCount bucketCount) next := by
  unfold doUpdateTable at updated
  split_ifs at updated with unfit
  obtain ⟨taken, took, rest⟩ := ok_of_bind updated
  obtain ⟨padded, pads, stored⟩ := ok_of_bind rest
  cases stored
  have first : SameTable (manager.withTable newTable copyCount bucketCount) taken.1 :=
    Scan.foldlM_ok (fun _ state =>
      SameTable (manager.withTable newTable copyCount bucketCount) state.1) _ _ ⟨rfl, rfl, rfl⟩
      (fun _ _ _ _ _ _ same ran => same.trans (takeEntry_table ran)) took
  have second : SameTable taken.1 padded := by
    unfold padEntries at pads
    split_ifs at pads with longer
    · exact Scan.foldlM_ok (fun _ state => SameTable taken.1 state) _ _ ⟨rfl, rfl, rfl⟩
        (fun _ _ _ _ _ _ same ran => same.trans (padEntry_table ran)) pads
    · cases pads
      exact ⟨rfl, rfl, rfl⟩
  have both := first.trans second
  exact { both with }

end TableManager

/-! ### Marks -/

namespace DoneSet

variable {done marked : DoneSet} {bucket : Nat}

theorem mark_self (result : done.mark bucket = .ok marked) : marked[bucket]? = some true := by
  unfold mark at result
  split_ifs at result with inside
  cases result
  rw [Array.getElem?_setIfInBounds, if_pos rfl, if_pos inside]

theorem mark_keeps (result : done.mark bucket = .ok marked) {other : Nat}
    (set : done[other]? = some true) : marked[other]? = some true := by
  by_cases same : other = bucket
  · rw [same]
    exact mark_self result
  · unfold mark at result
    split_ifs at result with inside
    cases result
    rw [Array.getElem?_setIfInBounds, if_neg (Ne.symm same)]
    exact set

end DoneSet

namespace TableManager

variable {manager : TableManager} {table info : Array UInt64}

private theorem readAt_ok {index : Nat} {entry : UInt64} (read : readAt table index = .ok entry) :
    table[index]? = some entry := by
  unfold readAt at read
  split at read
  · rename_i value found
    cases read
    exact found
  · cases read

variable {i bucket turns : Nat} {done result : DoneSet}

theorem hasMigrated_false (same : manager.hasMigrated table info i bucket = .ok false) {j : Nat}
    (inside : j < manager.copyCount) :
    info[i + 1 + j]? = table[bucket + j * manager.bucketCount]? := by
  obtain ⟨current, here, rest⟩ := ok_of_bind (Scan.anyM_false same (List.mem_range.mpr inside))
  obtain ⟨source, there, compared⟩ := ok_of_bind rest
  have equal : current = source := by
    by_contra ne
    exact absurd ((decide_eq_true ne).symm.trans (Except.ok.inj compared)) (by decide)
  rw [readAt_ok here, readAt_ok there, equal]

private theorem initFrom_step (inside : i < info.size)
    (loop : manager.initFrom table info (turns + 1) i done = .ok result) :
    ∃ entry bucket migrated marked, info[i]? = some entry ∧ bucketOf entry = .ok bucket ∧
      manager.hasMigrated table info i bucket = .ok migrated ∧
      (if migrated then done.mark bucket else .ok done) = .ok marked ∧
      manager.initFrom table info turns (i + 1 + manager.copyCount) marked = .ok result := by
  unfold initFrom at loop
  rw [if_pos inside] at loop
  obtain ⟨entry, read, loop⟩ := ok_of_bind loop
  obtain ⟨bucket, cast, loop⟩ := ok_of_bind loop
  obtain ⟨migrated, compared, loop⟩ := ok_of_bind loop
  refine ⟨entry, bucket, migrated, ?_⟩
  cases migrated with
  | true =>
    obtain ⟨marked, marks, loop⟩ := ok_of_bind loop
    exact ⟨marked, readAt_ok read, cast, compared, marks, loop⟩
  | false => exact ⟨done, readAt_ok read, cast, compared, rfl, loop⟩

theorem initFrom_keeps (loop : manager.initFrom table info turns i done = .ok result)
    (set : done[bucket]? = some true) : result[bucket]? = some true := by
  induction turns generalizing i done with
  | zero =>
    cases loop
    exact set
  | succ turns ih =>
    by_cases inside : i < info.size
    · obtain ⟨entry, here, migrated, marked, -, -, -, marks, rest⟩ := initFrom_step inside loop
      apply ih rest
      cases migrated with
      | true => exact DoneSet.mark_keeps marks set
      | false =>
        cases marks
        exact set
    · unfold initFrom at loop
      rw [if_neg inside] at loop
      cases loop
      exact set

theorem initFrom_marks {n : Nat} {entry : UInt64}
    (loop : manager.initFrom table info turns i done = .ok result) (enough : n < turns)
    (listed : info[i + n * (1 + manager.copyCount)]? = some entry)
    (number : entry.toNat % 2 ^ 32 = bucket) {j : Nat} (inside : j < manager.copyCount)
    (ne : info[i + n * (1 + manager.copyCount) + 1 + j]? ≠
      table[bucket + j * manager.bucketCount]?) : result[bucket]? = some true := by
  induction n generalizing turns i done with
  | zero =>
    obtain ⟨turns, rfl⟩ := Nat.exists_eq_succ_of_ne_zero (Nat.ne_of_gt enough)
    rw [Nat.zero_mul, Nat.add_zero] at listed ne
    have room : i < info.size := (Array.getElem?_eq_some_iff.mp listed).1
    obtain ⟨here, found, migrated, marked, read, cast, compared, marks, rest⟩ :=
      initFrom_step room loop
    rw [listed] at read
    cases read
    have same : found = bucket := by
      unfold bucketOf at cast
      split_ifs at cast with small
      rw [← number]
      exact (Except.ok.inj cast).symm
    cases migrated with
    | true =>
      apply initFrom_keeps rest
      rw [← same]
      exact DoneSet.mark_self marks
    | false =>
      rw [same] at compared
      exact absurd (hasMigrated_false compared inside) ne
  | succ n ih =>
    obtain ⟨turns, rfl⟩ := Nat.exists_eq_succ_of_ne_zero (Nat.ne_of_gt (Nat.lt_of_le_of_lt
      (Nat.zero_le _) enough))
    have place : i + (n + 1) * (1 + manager.copyCount) =
        i + 1 + manager.copyCount + n * (1 + manager.copyCount) := by
      rw [Nat.succ_mul]
      omega
    rw [place] at listed ne
    have room : i < info.size := by
      have bound := (Array.getElem?_eq_some_iff.mp listed).1
      omega
    obtain ⟨here, found, migrated, marked, -, -, -, -, rest⟩ := initFrom_step room loop
    exact ih rest (Nat.lt_of_succ_lt_succ enough) listed ne

end TableManager

/-! ### Redirected buckets -/

def OtherServer (localIp : UInt64) : Option UInt64 → Prop
  | some target => target ≠ 0 ∧ target ≠ localIp
  | none => False

instance (localIp : UInt64) (target : Option UInt64) : Decidable (OtherServer localIp target) :=
  match target with
  | some target => inferInstanceAs (Decidable (target ≠ 0 ∧ target ≠ localIp))
  | none => isFalse id

namespace TairManager

variable {server next : TairManager} {ip : UInt64} {bucket : Nat}

structure Redirects (server : TairManager) (localIp : UInt64) (bucket : Nat) : Prop where
  marked : server.migrateDoneSet[bucket]? = some true
  target : OtherServer localIp (server.tableMgr.getMigrateTarget bucket).toOption

theorem Redirects.shouldProxy (redirects : server.Redirects ip bucket)
    (cluster : server.localmode = false) {hashcode : UInt32}
    (own : hashcode.toNat % server.tableMgr.bucketCount = bucket) :
    ∃ target, server.shouldProxy ip hashcode = .ok (some target) := by
  have tested : server.migrateDoneSet.test bucket = .ok true := by
    unfold DoneSet.test
    rw [redirects.marked]
  have target := redirects.target
  unfold TairManager.shouldProxy
  rw [cluster, if_neg (by decide)]
  dsimp only
  rw [own, tested]
  change ∃ target, (server.tableMgr.getMigrateTarget bucket >>= fun target => _) = _
  cases found : server.tableMgr.getMigrateTarget bucket with
  | error fault =>
    rw [found] at target
    cases target
  | ok other =>
    rw [found] at target
    refine ⟨other, congrArg Except.ok (if_neg ?_)⟩
    rintro (self | zero)
    · exact target.2 self
    · exact target.1 zero

theorem Redirects.table (redirects : server.Redirects ip bucket) :
    ∃ held, server.tableMgr.serverTable = some held := by
  have target := redirects.target
  unfold TableManager.getMigrateTarget TableManager.getServerTable at target
  cases held : server.tableMgr.serverTable with
  | none =>
    rw [held] at target
    cases target
  | some table => exact ⟨table, rfl⟩

/-- A request that asks, with the hash of its key, is not served here. -/
theorem Redirects.process (redirects : server.Redirects ip bucket)
    (working : server.isWorking = true) (cluster : server.localmode = false) {req : Request}
    (asks : req.asks = true) (honest : req.hashCode = req.keyHash.toNat)
    (own : req.keyHash.toNat % server.tableMgr.bucketCount = bucket) :
    server.process ip req = .ok .shouldProxy := by
  have sent : UInt32.ofNat (req.hashCode % 2 ^ 32).toNat = req.keyHash := by
    have small := req.keyHash.toNat_lt
    rw [honest, Int.emod_eq_of_lt (by omega) (by omega), Int.toNat_natCast]
    exact UInt32.ofNat_toNat
  obtain ⟨target, found⟩ := redirects.shouldProxy cluster own
  unfold TairManager.process
  rw [working, if_neg (by decide), if_pos asks, sent, found]
  rfl

/-! ### New tables -/

theorem updateServerTable_ok {update : TableUpdate}
    (updated : server.updateServerTable ip update = .ok next) :
    ∃ tableMgr done,
      TableManager.SameTable (server.tableMgr.withTable update.serverTable update.copyCount
        update.bucketCount) tableMgr ∧
      server.freshDoneSet tableMgr update.currentStateTable = .ok done ∧
      next = { server with
        tableMgr := tableMgr
        migrateDoneSet := done
        status := .canWork
        updating := true } := by
  obtain ⟨tableMgr, taken, rest⟩ := ok_of_bind updated
  obtain ⟨done, fresh, stored⟩ := ok_of_bind rest
  cases stored
  exact ⟨tableMgr, done, TableManager.doUpdateTable_table taken, fresh, rfl⟩

end TairManager

namespace TableUpdate

/-- The list that came with the table has a row for the bucket that differs from the
row in the table. -/
def Remarks (update : TableUpdate) (bucket : Nat) : Prop :=
  ∃ n < update.currentStateTable.size,
    (update.currentStateTable[n * (1 + update.copyCount)]?).map
      (fun entry => entry.toNat % 2 ^ 32) = some bucket ∧
    ∃ j < update.copyCount, update.currentStateTable[n * (1 + update.copyCount) + 1 + j]? ≠
      update.serverTable[bucket + j * update.bucketCount]?

instance (update : TableUpdate) (bucket : Nat) : Decidable (update.Remarks bucket) :=
  inferInstanceAs (Decidable (∃ n < _, _ ∧ ∃ j < _, _))

/-- The table hands the bucket to another server, and its list says that this has
been done. -/
def HandsOver (update : TableUpdate) (localIp : UInt64) (bucket : Nat) : Prop :=
  update.Remarks bucket ∧
    OtherServer localIp update.serverTable[bucket + update.bucketCount * update.copyCount]?

instance (update : TableUpdate) (localIp : UInt64) (bucket : Nat) :
    Decidable (update.HandsOver localIp bucket) :=
  inferInstanceAs (Decidable (_ ∧ _))

/-- A server that does not work yet redirects the bucket once it has taken the table. -/
theorem HandsOver.redirects {update : TableUpdate} {server next : TairManager} {ip : UInt64}
    {bucket : Nat} (handsOver : update.HandsOver ip bucket) (idle : server.status ≠ .canWork)
    (updated : server.updateServerTable ip update = .ok next) : next.Redirects ip bucket := by
  obtain ⟨tableMgr, done, table, fresh, rfl⟩ := TairManager.updateServerTable_ok updated
  have held : tableMgr.serverTable = some update.serverTable := table.serverTable
  have copies : tableMgr.copyCount = update.copyCount := table.copies
  have buckets : tableMgr.bucketCount = update.bucketCount := table.buckets
  obtain ⟨⟨n, enough, listed, j, inside, ne⟩, target⟩ := handsOver
  constructor
  · unfold TairManager.freshDoneSet TableManager.initMigrateDoneSet
      TableManager.getServerTable at fresh
    rw [if_neg idle, held] at fresh
    obtain ⟨entry, found, number⟩ := Option.map_eq_some_iff.mp listed
    rw [← copies] at found inside ne
    rw [← buckets] at ne
    refine TableManager.initFrom_marks fresh enough ?_ number inside ?_
    · rw [Nat.zero_add]
      exact found
    · rw [Nat.zero_add]
      exact ne
  · change OtherServer ip (tableMgr.getMigrateTarget bucket).toOption
    unfold TableManager.getMigrateTarget TableManager.getServerTable TableManager.hashTableSize
    rw [held, copies, buckets]
    change OtherServer ip
      (readAt update.serverTable (bucket + update.bucketCount * update.copyCount)).toOption
    unfold readAt
    cases found : update.serverTable[bucket + update.bucketCount * update.copyCount]? with
    | none =>
      rw [found] at target
      cases target
    | some other =>
      rw [found] at target
      exact target

end TableUpdate

end Tair.DataServer
