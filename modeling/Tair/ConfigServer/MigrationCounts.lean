/-
The books of a migration balance. The group counts buckets by their masters and sets of slaves;
reports and the final check compare rows. After a rebuild with the first strategy the two agree,
and every report takes the same bucket out of both.
-/

import Tair.ConfigServer.GroupSteps

namespace Tair.ConfigServer

open Std Tair.Library

variable {shape : Shape}

/-! ### Counting the buckets -/

variable (m d : FlatTable shape)

/-- The buckets `fill_migrate_machine` counts. -/
def counted : Finset shape.Bucket :=
  Finset.univ.filter (fun idx =>
    m.get shape.master idx ≠ 0 ∧ migrateThisBucket m d idx = true)

def differing : Finset shape.Bucket :=
  Finset.univ.filter (Differs m d)

theorem mem_differing {m d : FlatTable shape} {idx : shape.Bucket} :
    idx ∈ differing m d ↔ Differs m d idx := by
  unfold differing
  rw [Finset.mem_filter]
  exact and_iff_right (Finset.mem_univ idx)

theorem differing_eq_empty {m d : FlatTable shape} : differing m d = ∅ ↔ m = d := by
  constructor
  · intro none
    apply Grid.ext
    intro line idx
    by_contra ne
    have member : idx ∈ differing m d := mem_differing.mpr ⟨line, ne⟩
    rw [none] at member
    exact absurd member (Finset.notMem_empty idx)
  · intro same
    rw [same]
    refine Finset.eq_empty_of_forall_notMem (fun idx member => ?_)
    obtain ⟨line, ne⟩ := mem_differing.mp member
    exact ne rfl

theorem differing_movedRow (idx : shape.Bucket) :
    differing (movedRow m d idx) d = (differing m d).erase idx := by
  ext bucket
  rw [Finset.mem_erase, mem_differing, mem_differing]
  exact differs_movedRow m d idx bucket

theorem fillMigrateMachine_exact :
    CounterMap.Exact (fillMigrateMachine m d).1 (counted m d) (fun idx => m.get shape.master idx) ∧
      (fillMigrateMachine m d).2 = (counted m d).card := by
  have buckets : shape.buckets.toFinset = Finset.univ := by
    ext idx
    simp [Shape.mem_buckets]
  have loop := CounterMap.Exact.foldl
    (fun idx => m.get shape.master idx ≠ 0 ∧ migrateThisBucket m d idx = true)
    (fun idx => m.get shape.master idx) shape.buckets_nodup
  rw [buckets] at loop
  exact loop

namespace GroupInfo

/-! ### After a rebuild -/

/-- A rebuild with the first strategy that succeeds puts every bucket in order, and
does not only permute one that was in order. -/
theorem firstStrategy_rows {group seen : GroupInfo shape} {fresh : Fresh} {up : UpnodeList}
    {rebuilding : Rebuilding shape} (first : usedStrategy shape group.config up = 1)
    (result : group.rebuildSnapshot fresh up = .ok (seen, some rebuilding))
    (built : rebuilding.ret ≠ .buildError) (idx : shape.Bucket) :
    Placed (upAvailable group.config up) (fun line => rebuilding.destHashTable.get line idx) ∧
      (Placed (upAvailable group.config up) (group.loadedRow idx) →
        (fun line => rebuilding.destHashTable.get line idx) = group.loadedRow idx ∨
          Moved (group.loadedRow idx) (fun line => rebuilding.destHashTable.get line idx)) := by
  unfold rebuildSnapshot at result
  dsimp only at result
  split_ifs at result with few
  · cases result
  obtain ⟨-, quick, rebuilt, quickly, table, rfl⟩ := buildWith_some result
  have nonneg : ∀ node, 0 ≤ (builder1 group.config fresh up).mtokens.count node :=
    mcount_construct fresh.maxCountNow fresh.limits
  have servers : quick.builder.isNodeAvailble = upAvailable group.config up := by
    funext node
    unfold TableBuilder.isNodeAvailble
    rw [(quickWork_some nonneg quickly).1]
    rfl
  have loaded : (fun line => ((builder1 group.config fresh up).loadHashTable
      group.mHashTable).get line idx) = group.loadedRow idx := by
    funext line
    exact Grid.get_map _ _ line idx
  cases table
  have success : (quick.builder.rebuildTable (TableBuilder1.strategy shape)
      ((builder1 group.config fresh up).loadHashTable group.mHashTable) true).code = .buildOK := by
    rcases TableBuilder.rebuildTable_code quick.builder (TableBuilder1.strategy shape)
        ((builder1 group.config fresh up).loadHashTable group.mHashTable) with good | bad
    · exact good
    · exact absurd bad built
  obtain ⟨-, done⟩ := TableBuilder.rebuildTable_buildOK success
  have placing := TableBuilder1.placing shape
  rw [← servers, ← loaded]
  exact ⟨((placing.checkTable_settled done).2 idx).placed, fun placed =>
    Work.checkTable_moves placing (TableBuilder1.capsMasters shape)
      (TableBuilder1.keepsMasters shape) done placed⟩

/-- The states a rebuild with the first strategy leaves. The reports that come while
the lock is free may have changed anything in `live` but its configuration and its
servers. -/
inductive Produced : GroupInfo shape → Prop
  | rebuild {group seen live : GroupInfo shape} {fresh : Fresh} {up : UpnodeList}
      {rebuilding : Rebuilding shape} (first : usedStrategy shape group.config up = 1)
      (snapshot : group.rebuildSnapshot fresh up = .ok (seen, some rebuilding))
      (again : rebuilding.firstRun = false) (built : rebuilding.ret ≠ .buildError)
      (config : live.config = seen.config) (servers : live.availableServer = seen.availableServer) :
      Produced (live.rebuildCommit rebuilding)

theorem eq_of_first {config : GroupConfig} {up : UpnodeList} {node other : ServerIdType}
    (alive : upAvailable config up node = true) (otherAlive : upAvailable config up other = true)
    (same : node.first = other.first) : node = other := by
  rw [(upAvailable_iff.mp alive).2, (upAvailable_iff.mp otherAlive).2, same]

theorem first_ne_zero {config : GroupConfig} {up : UpnodeList} {node : ServerIdType}
    (alive : upAvailable config up node = true) : node.first ≠ 0 :=
  up.real node.first (upAvailable_iff.mp alive).1

private theorem quick_eq_of_uncounted {config : GroupConfig} {up : UpnodeList}
    {source quick result : shape.Line → ServerIdType}
    (quickRow : QuickRow (upAvailable config up) source quick)
    (placed : Placed (upAvailable config up) result)
    (moves : Placed (upAvailable config up) source → result = source ∨ Moved source result)
    (master : (quick shape.master).first = (result shape.master).first)
    (slaves : ∀ line, line ≠ shape.master → ∃ other, other ≠ shape.master ∧
      (result line).first = (quick other).first) : result = quick := by
  obtain ⟨row, promoted, rfl⟩ := quickRow
  have kept := kept_of_promoted promoted (upAvailable_unset config up)
  -- A server of the result is not a hole, so the quick entry with its address is the same.
  have filled : ∀ line other, (result line).first = (swept (upAvailable config up) row other).first →
      result line = swept (upAvailable config up) row other := by
    intro line other same
    by_cases isMaster : other = shape.master
    · rw [isMaster] at same ⊢
      exact eq_of_first (placed.alive line) kept.masterAlive same
    · rcases kept.slaves other isMaster with hole | ⟨alive, -⟩
      · rw [hole] at same
        exact absurd same (first_ne_zero (placed.alive line))
      · exact eq_of_first (placed.alive line) alive same
  have top := filled shape.master shape.master master.symm
  apply row_eq_quick_of_covers promoted (upAvailable_unset config up) placed moves top
  intro line
  by_cases isMaster : line = shape.master
  · exact ⟨shape.master, isMaster ▸ top⟩
  · obtain ⟨other, -, same⟩ := slaves line isMaster
    exact ⟨other, filled line other same⟩

private theorem commit_rows {group seen live : GroupInfo shape} {fresh : Fresh} {up : UpnodeList}
    {rebuilding : Rebuilding shape} (first : usedStrategy shape group.config up = 1)
    (snapshot : group.rebuildSnapshot fresh up = .ok (seen, some rebuilding))
    (again : rebuilding.firstRun = false) (built : rebuilding.ret ≠ .buildError)
    (config : live.config = seen.config) (servers : live.availableServer = seen.availableServer)
    (idx : shape.Bucket) :
    (live.migratedFrom rebuilding).get shape.master idx ≠ 0 ∧
      (migrateThisBucket (live.migratedFrom rebuilding) (writeHashTable rebuilding.destHashTable)
          idx = false →
        ∀ line, (live.migratedFrom rebuilding).get line idx =
          (writeHashTable rebuilding.destHashTable).get line idx) := by
  obtain ⟨placed, moves⟩ := firstStrategy_rows first snapshot built idx
  obtain ⟨rfl, taken⟩ := rebuildSnapshot_some snapshot
  have wrote : ∀ line, (writeHashTable rebuilding.destHashTable).get line idx =
      (rebuilding.destHashTable.get line idx).first := fun line => Grid.get_map _ _ line idx
  by_cases migrate : live.config.dataNeedMove = tairDataNeedMigrate
  · by_cases several : shape.copyCount > 1
    · have needed : group.NeedsQuick := by
        refine ⟨?_, several, taken.firstRun.symm.trans again⟩
        rw [config] at migrate
        exact migrate
      have quickRow := taken.quick needed idx
      rw [migratedFrom_quick migrate again several]
      have quick : ∀ line, (writeHashTable rebuilding.quickTable).get line idx =
          (rebuilding.quickTable.get line idx).first := fun line => Grid.get_map _ _ line idx
      constructor
      · obtain ⟨row, promoted, same⟩ := quickRow
        have kept := kept_of_promoted promoted (upAvailable_unset group.config up)
        rw [← same] at kept
        rw [quick]
        exact first_ne_zero kept.masterAlive
      · intro uncounted line
        have agree := mt (migrateThisBucket_iff (writeHashTable rebuilding.quickTable)
          (writeHashTable rebuilding.destHashTable) idx).mpr (Bool.eq_false_iff.mp uncounted)
        rw [quick, wrote]
        refine congrArg ServerIdType.first (congrFun (quick_eq_of_uncounted quickRow placed moves
          ?_ ?_) line).symm
        · by_contra ne
          apply agree
          left
          rw [quick, wrote]
          exact ne
        · intro copy slave
          by_contra missing
          apply agree
          right
          refine ⟨copy, slave, fun other otherSlave same => missing ⟨other, otherSlave, ?_⟩⟩
          rw [quick, wrote] at same
          exact same
    · have single : shape.copyCount ≤ 1 := Nat.not_lt.mp several
      have only : ∀ line : shape.Line, line = shape.master := by
        intro line
        apply Fin.ext
        have bound := line.isLt
        change line.val = 0
        omega
      constructor
      · rw [migratedFrom_single migrate again single]
        split_ifs with alive
        · rw [servers, mem_withServers] at alive
          exact up.real _ alive
        · exact first_ne_zero (placed.alive shape.master)
      · intro uncounted line
        rw [only line]
        by_contra ne
        have counts := (migrateThisBucket_iff (live.migratedFrom rebuilding)
          (writeHashTable rebuilding.destHashTable) idx).mpr (Or.inl ne)
        rw [uncounted] at counts
        cases counts
  · rw [migratedFrom, if_neg (fun both => migrate both.1)]
    refine ⟨?_, fun _ _ => rfl⟩
    rw [wrote]
    exact first_ne_zero (placed.alive shape.master)

/-! ### The books -/

structure Bookkeeping (group : GroupInfo shape) : Prop where
  machine : CounterMap.Exact group.migrateMachine (differing group.mHashTable group.dHashTable)
    (fun idx => group.mHashTable.get shape.master idx)
  blocks : group.migrateBlockCount = (differing group.mHashTable group.dHashTable).card ∨
    (group.migrateBlockCount = -1 ∧ group.mHashTable = group.dHashTable)

theorem Produced.bookkeeping {group : GroupInfo shape} (produced : Produced group) :
    Bookkeeping group := by
  cases produced with
  | @rebuild start seen live fresh up rebuilding first snapshot again built config servers =>
    have rows := commit_rows first snapshot again built config servers
    set source := live.migratedFrom rebuilding
    set dest := writeHashTable rebuilding.destHashTable
    have same : counted source dest = differing source dest := by
      refine Finset.filter_congr (fun idx _ => ?_)
      constructor
      · exact fun both => differs_of_migrate both.2
      · rintro ⟨line, ne⟩
        refine ⟨(rows idx).1, ?_⟩
        by_contra uncounted
        exact ne ((rows idx).2 (Bool.eq_false_iff.mpr uncounted) line)
    obtain ⟨exact, count⟩ := fillMigrateMachine_exact source dest
    rw [same] at exact count
    obtain ⟨-, m, d⟩ := live.rebuildCommit_tables built
    have filled : (live.rebuildCommit rebuilding).migrateMachine =
        (fillMigrateMachine source dest).1 := by
      unfold rebuildCommit
      rw [if_neg built, again]
      rfl
    have blocks : (live.rebuildCommit rebuilding).migrateBlockCount =
        if (fillMigrateMachine source dest).2 > 0 then (fillMigrateMachine source dest).2
        else -1 := by
      unfold rebuildCommit
      rw [if_neg built, again]
      rfl
    constructor
    · rw [filled, m, d]
      exact exact
    · rw [blocks, m, d, count]
      by_cases some : ((differing source dest).card : Int) > 0
      · rw [if_pos some]
        exact Or.inl rfl
      · rw [if_neg some]
        refine Or.inr ⟨rfl, differing_eq_empty.mp (Finset.card_eq_zero.mp ?_)⟩
        change (differing source dest).card = 0
        omega

/-- A row that differs is one to migrate, and its destination has distinct copies. -/
theorem Produced.migrates {group : GroupInfo shape} (produced : Produced group) {idx : shape.Bucket}
    (ne : Differs group.mHashTable group.dHashTable idx) :
    migrateThisBucket group.mHashTable group.dHashTable idx = true ∧
      Function.Injective (fun line => group.dHashTable.get line idx) := by
  cases produced with
  | @rebuild start seen live fresh up rebuilding first snapshot again built config servers =>
    obtain ⟨-, m, d⟩ := live.rebuildCommit_tables built
    rw [m, d] at ne ⊢
    constructor
    · by_contra uncounted
      obtain ⟨line, ne⟩ := ne
      exact ne ((commit_rows first snapshot again built config servers idx).2
        (Bool.eq_false_iff.mpr uncounted) line)
    · intro line other same
      by_contra apart
      apply (firstStrategy_rows first snapshot built idx).1.distinct line other apart
      exact (Grid.get_map _ _ line idx).symm.trans (same.trans (Grid.get_map _ _ other idx))

theorem Produced.published {group : GroupInfo shape} (produced : Produced group) :
    group.hashTable = group.mHashTable ∧
      (group.config.dataNeedMove ≠ tairDataNeedMigrate → group.mHashTable = group.dHashTable) := by
  cases produced with
  | @rebuild start seen live fresh up rebuilding first snapshot again built config servers =>
    obtain ⟨published, m, d⟩ := live.rebuildCommit_tables built
    refine ⟨published.trans m.symm, fun idle => ?_⟩
    rw [m, d]
    apply if_neg
    intro both
    apply idle
    unfold rebuildCommit
    rw [if_neg built]
    exact both.1

namespace Bookkeeping

variable {group : GroupInfo shape}

theorem moveBucket (books : Bookkeeping group) (migrating : group.isMigrating = true)
    {idx : shape.Bucket} (ne : Differs group.mHashTable group.dHashTable idx)
    {moving : CounterMap UInt64} (left : CounterMap.Exact moving
      ((differing group.mHashTable group.dHashTable).erase idx)
      (fun idx => group.mHashTable.get shape.master idx)) :
    Bookkeeping (group.moveBucket idx moving) := by
  have fewer := differing_movedRow group.mHashTable group.dHashTable idx
  constructor
  · change CounterMap.Exact moving
      (differing (movedRow group.mHashTable group.dHashTable idx) group.dHashTable) _
    rw [fewer]
    refine left.congr (fun bucket member => ?_)
    exact (get_movedRow _ _ _ _ _).trans (if_neg (Finset.ne_of_mem_erase member))
  · change group.migrateBlockCount - 1 =
        (differing (movedRow group.mHashTable group.dHashTable idx) group.dHashTable).card ∨ _
    rw [fewer]
    have member : idx ∈ differing group.mHashTable group.dHashTable := mem_differing.mpr ne
    have pos : 0 < (differing group.mHashTable group.dHashTable).card :=
      Finset.card_pos.mpr ⟨idx, member⟩
    rcases books.blocks with count | ⟨ended, -⟩
    · left
      rw [count, Finset.card_erase_of_mem member]
      omega
    · exact absurd ended (of_decide_eq_true migrating)

/-- A report of any server about any bucket finds the books in order, and leaves
them so. -/
theorem setMigratingHashtable (books : Bookkeeping group) (idx : shape.Bucket) (id : UInt64) :
    ∃ next, group.setMigratingHashtable idx.val id = .ok next ∧ Bookkeeping next := by
  have step := group.setMigratingHashtable_step idx id
  generalize group.setMigratingHashtable idx.val id = result at step ⊢
  cases step with
  | stays idle => exact ⟨group, rfl, books⟩
  | moves migrating master ne moving lost =>
    obtain ⟨rest, found, exact⟩ := books.machine.drop (mem_differing.mpr ne)
    rw [master, lost] at found
    cases found
    exact ⟨_, rfl, books.moveBucket migrating ne exact⟩
  | fails migrating master ne missing =>
    obtain ⟨rest, found, -⟩ := books.machine.drop (mem_differing.mpr ne)
    rw [master, missing] at found
    cases found

theorem checkMigrateComplete (books : Bookkeeping group) (down : UInt64 → Bool) :
    ∃ done next, group.checkMigrateComplete down = .ok (done, next) ∧ Bookkeeping next := by
  unfold GroupInfo.checkMigrateComplete
  by_cases idle : group.config.dataNeedMove ≠ tairDataNeedMigrate ∨ group.migrateBlockCount = -1
  · rw [if_pos idle]
    exact ⟨true, group, rfl, books⟩
  · rw [if_neg idle]
    by_cases busy : group.migrateMachine.isEmpty = false
    · rw [if_pos busy]
      by_cases lost : group.migrateMachine.keys.any down = true
      · rw [if_pos lost]
        exact ⟨true, group, rfl, books⟩
      · rw [if_neg lost]
        exact ⟨false, _, rfl, books.machine, books.blocks⟩
    · have same : group.mHashTable = group.dHashTable := by
        apply differing_eq_empty.mp
        apply books.machine.isEmpty_iff.mp
        rw [Bool.not_eq_false] at busy
        exact busy
      rw [if_neg busy, if_neg (fun wrong => wrong same)]
      exact ⟨true, _, rfl, books.machine, Or.inr ⟨rfl, same⟩⟩

theorem hardCheckMigrateComplete (books : Bookkeeping group) :
    Bookkeeping group.hardCheckMigrateComplete := by
  unfold GroupInfo.hardCheckMigrateComplete
  by_cases same : group.mHashTable = group.dHashTable
  · rw [if_pos same]
    refine ⟨?_, books.blocks⟩
    change CounterMap.Exact ∅ (differing group.mHashTable group.dHashTable) _
    rw [differing_eq_empty.mpr same]
    exact CounterMap.Exact.empty _
  · rw [if_neg same]
    exact books

end Bookkeeping

inductive Call (shape : Shape) where
  | setMigratingHashtable (idx : shape.Bucket) (serverId : UInt64)
  | checkMigrateComplete (down : UInt64 → Bool)
  | hardCheckMigrateComplete

def call (group : GroupInfo shape) : Call shape → Except Fault (GroupInfo shape)
  | .setMigratingHashtable idx serverId => group.setMigratingHashtable idx.val serverId
  | .checkMigrateComplete down => Prod.snd <$> group.checkMigrateComplete down
  | .hardCheckMigrateComplete => .ok group.hardCheckMigrateComplete

theorem Bookkeeping.call {group : GroupInfo shape} (books : Bookkeeping group)
    (item : Call shape) : ∃ next, group.call item = .ok next ∧ Bookkeeping next := by
  cases item with
  | setMigratingHashtable idx id => exact books.setMigratingHashtable idx id
  | checkMigrateComplete down =>
    obtain ⟨done, next, ran, kept⟩ := books.checkMigrateComplete down
    refine ⟨next, ?_, kept⟩
    change Prod.snd <$> group.checkMigrateComplete down = _
    rw [ran]
    rfl
  | hardCheckMigrateComplete => exact ⟨_, rfl, books.hardCheckMigrateComplete⟩

/-- No sequence of reports and checks after a rebuild runs into an assertion, and
after each the counters are exact: the number of blocks is the sum over the servers
and the number of rows that differ, unless it is -1 and no row differs. -/
theorem migration_never_drifts {group : GroupInfo shape} (produced : Produced group)
    (calls : List (Call shape)) :
    ∃ final, calls.foldlM call group = .ok final ∧
      ((final.migrateBlockCount = final.migrateMachine.total ∧
          final.migrateBlockCount =
            (Finset.univ.filter (Differs final.mHashTable final.dHashTable)).card) ∨
        (final.migrateBlockCount = -1 ∧ final.mHashTable = final.dHashTable)) := by
  obtain ⟨final, finished, books⟩ := Scan.foldlM_total (fun _ => Bookkeeping) calls group
    produced.bookkeeping (fun _ item _ _ _ books => books.call item)
  refine ⟨final, finished, ?_⟩
  rcases books.blocks with count | stopped
  · exact Or.inl ⟨count.trans books.machine.total.symm, count⟩
  · exact Or.inr stopped

def sampleGroup : GroupInfo sampleShape :=
  .atRest 2 fun line idx => if line.val = idx.val then 1 else 2

def sampleFresh : Fresh :=
  ⟨0, TableBuilder1.unsetLimits, ⟨false, .finite 0, 0, 0, 0, 0, 0, 0⟩⟩

theorem sampleUp_real : ∀ id ∈ ([1, 2, 3] : List UInt64), id ≠ invalidFlag := by
  simp [invalidFlag]

def sampleUp : UpnodeList := ⟨[1, 2, 3], sampleUp_real⟩

def sampleMigrating : GroupInfo sampleShape :=
  match sampleGroup.rebuildSnapshot sampleFresh sampleUp with
  | .ok (seen, some rebuilding) => seen.rebuildCommit rebuilding
  | _ => sampleGroup

theorem sampleMigrating_produced : Produced sampleMigrating := by
  cases snapshot : sampleGroup.rebuildSnapshot sampleFresh sampleUp with
  | error fault => cases snapshot
  | ok result =>
    obtain ⟨seen, rebuilding⟩ := result
    cases rebuilding with
    | none => cases snapshot
    | some rebuilding =>
      have same : sampleMigrating = seen.rebuildCommit rebuilding := by
        unfold sampleMigrating
        rw [snapshot]
      have first : usedStrategy sampleShape sampleGroup.config sampleUp = 1 := by decide +kernel
      rw [same]
      refine .rebuild first snapshot ?_ ?_ rfl rfl
      · cases snapshot
        decide +kernel
      · cases snapshot
        decide +kernel

/-- A report from a server that is not the master, the report that counts, and the
same once more. -/
def sampleCalls : List (Call sampleShape) :=
  [.setMigratingHashtable ⟨0, by decide⟩ 2, .setMigratingHashtable ⟨0, by decide⟩ 1,
    .setMigratingHashtable ⟨0, by decide⟩ 1, .checkMigrateComplete (fun _ => false)]

theorem migration_never_drifts_sample :
    sampleMigrating.migrateBlockCount = 1 ∧
      ∃ final, sampleCalls.foldlM call sampleMigrating = .ok final ∧
        ((final.migrateBlockCount = final.migrateMachine.total ∧
            final.migrateBlockCount =
              (Finset.univ.filter (Differs final.mHashTable final.dHashTable)).card) ∨
          (final.migrateBlockCount = -1 ∧ final.mHashTable = final.dHashTable)) :=
  ⟨by decide +kernel, migration_never_drifts sampleMigrating_produced sampleCalls⟩

/-! ### Reports of any bucket -/

/-- The report stays inside the tables. It does nothing, or it moves the row of its bucket. -/
def ReportInside (group : GroupInfo shape) (bucketId : Nat) (serverId : UInt64) : Prop :=
  group.setMigratingHashtable bucketId serverId ≠ .error .pastTable ∧
    ∀ next, group.setMigratingHashtable bucketId serverId = .ok next →
      next.hashTable = group.hashTable ∧ next.dHashTable = group.dHashTable ∧
        (next = group ∨ ∃ idx : shape.Bucket, bucketId = idx.val ∧
          next.mHashTable = movedRow group.mHashTable group.dHashTable idx)

/-- A report leaves the tables exactly if its bucket has the number of buckets as its number, and
the entry behind the first line is the server's or is not there. -/
theorem reportInside_iff (group : GroupInfo shape) (bucketId : Nat) (serverId : UInt64) :
    ReportInside group bucketId serverId ↔
      ¬(bucketId = shape.bucketCount ∧ group.isMigrating = true ∧
        ∀ holder, entryAt group.mHashTable shape.bucketCount = .ok holder → holder = serverId) := by
  have effect : ∀ next, group.setMigratingHashtable bucketId serverId = .ok next →
      next.hashTable = group.hashTable ∧ next.dHashTable = group.dHashTable ∧
        (next = group ∨ ∃ idx : shape.Bucket, bucketId = idx.val ∧
          next.mHashTable = movedRow group.mHashTable group.dHashTable idx) := by
    intro next result
    rcases setMigratingHashtable_ok result with rfl | ⟨idx, machine, number, -, -, -, rfl⟩
    · exact ⟨rfl, rfl, Or.inl rfl⟩
    · exact ⟨rfl, rfl, Or.inr ⟨idx, number, rfl⟩⟩
  have outside : group.setMigratingHashtable bucketId serverId = .error .pastTable ↔
      bucketId = shape.bucketCount ∧ group.isMigrating = true ∧
        ∀ holder, entryAt group.mHashTable shape.bucketCount = .ok holder → holder = serverId := by
    rcases Nat.lt_trichotomy bucketId shape.bucketCount with inside | rfl | beyond
    · refine iff_of_false (fun failed => ?_) fun atEnd => inside.ne atEnd.1
      have step := group.setMigratingHashtable_step ⟨bucketId, inside⟩ serverId
      rw [failed] at step
      cases step
    · cases migrating : group.isMigrating with
      | false =>
        rw [setMigratingHashtable, if_pos (Or.inr migrating)]
        simp
      | true =>
        rcases setMigratingHashtable_end serverId migrating with
          ⟨holder, found, other, stays⟩ | ⟨same, fails⟩
        · rw [stays]
          exact iff_of_false (by simp) fun atEnd => other (atEnd.2.2 holder found)
        · exact iff_of_true fails ⟨rfl, rfl, same⟩
    · rw [setMigratingHashtable, if_pos (Or.inl beyond)]
      exact iff_of_false (by simp) fun atEnd => beyond.ne' atEnd.1
  rw [← outside]
  exact ⟨And.left, fun inside => ⟨inside, effect⟩⟩

/-- The slave of bucket 0 reports bucket 2 of two buckets. -/
theorem report_past_table :
    sampleMigrating.doFinishMigrate 2 sampleMigrating.serverVersion 2 = .error .pastTable := by
  rfl

end GroupInfo

end Tair.ConfigServer
