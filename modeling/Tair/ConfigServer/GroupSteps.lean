/-
What the operations of a group do. A report changes nothing or replaces the row of one bucket. The
first part of `rebuild` leaves a copy of the migration table, brought in order, and the second
writes it back.
-/

import Tair.ConfigServer.GroupInfo
import Tair.ConfigServer.RowChanges

namespace Tair.ConfigServer

open Std Tair.Library

variable {shape : Shape} {δ : Type}

/-! ### Rows of flat tables -/

variable (m d : FlatTable shape)

def Differs (idx : shape.Bucket) : Prop :=
  ∃ line, m.get line idx ≠ d.get line idx

instance (m d : FlatTable shape) (idx : shape.Bucket) : Decidable (Differs m d idx) :=
  inferInstanceAs (Decidable (∃ line, m.get line idx ≠ d.get line idx))

def movedRow (idx : shape.Bucket) : FlatTable shape :=
  Grid.ofFn (fun line bucket => if bucket = idx then d.get line idx else m.get line bucket)

theorem get_movedRow (idx bucket : shape.Bucket) (line : shape.Line) :
    (movedRow m d idx).get line bucket =
      if bucket = idx then d.get line idx else m.get line bucket :=
  Grid.get_ofFn _ line bucket

theorem differs_movedRow (idx bucket : shape.Bucket) :
    Differs (movedRow m d idx) d bucket ↔ bucket ≠ idx ∧ Differs m d bucket := by
  unfold Differs
  simp only [get_movedRow]
  by_cases here : bucket = idx
  · simp [here]
  · simp [here]

theorem migrateThisBucket_iff (idx : shape.Bucket) :
    migrateThisBucket m d idx = true ↔
      m.get shape.master idx ≠ d.get shape.master idx ∨
        ∃ line, line ≠ shape.master ∧
          ∀ other, other ≠ shape.master → d.get line idx ≠ m.get other idx := by
  unfold migrateThisBucket
  by_cases same : m.get shape.master idx = d.get shape.master idx
  · simp [same, Shape.mem_slaves]
  · simp [same]

theorem differs_of_migrate {m d : FlatTable shape} {idx : shape.Bucket}
    (counted : migrateThisBucket m d idx = true) : Differs m d idx := by
  rcases (migrateThisBucket_iff m d idx).mp counted with master | ⟨line, slave, new⟩
  · exact ⟨shape.master, master⟩
  · exact ⟨line, (new line slave).symm⟩

/-! ### Reports -/

theorem entryAt_bucket (table : FlatTable shape) (line : shape.Line) (idx : shape.Bucket) :
    entryAt table (line.val * shape.bucketCount + idx.val) = .ok (table.get line idx) :=
  dif_pos (Grid.offset_lt line idx)

theorem entryAt_master (table : FlatTable shape) (idx : shape.Bucket) :
    entryAt table idx.val = .ok (table.get shape.master idx) := by
  have offset := entryAt_bucket table shape.master idx
  rw [show shape.master.val * shape.bucketCount + idx.val = idx.val by
    change 0 * shape.bucketCount + idx.val = idx.val
    omega] at offset
  exact offset

/-- Writing an entry that is there already changes nothing, so every turn of the
loop can be seen as a write. -/
private theorem moveEntry_bucket (d : FlatTable shape) (idx : shape.Bucket)
    (state : FlatTable shape × Bool) (line : shape.Line) :
    moveEntry d idx.val state line =
      .ok (state.1.set line idx (d.get line idx),
        state.2 || decide (state.1.get line idx ≠ d.get line idx)) := by
  unfold moveEntry
  dsimp only
  rw [entryAt_bucket, entryAt_bucket]
  change (if state.1.get line idx ≠ d.get line idx then
    Except.ok (writeAt state.1 (line.val * shape.bucketCount + idx.val) (d.get line idx), true)
    else Except.ok state) = _
  rw [show writeAt state.1 _ _ = state.1.set line idx _ from dif_pos (Grid.offset_lt line idx)]
  by_cases same : state.1.get line idx = d.get line idx
  · have kept : state.1.set line idx (d.get line idx) = state.1 := by
      apply Grid.ext
      intro copy bucket
      rw [Grid.get_set]
      split_ifs with here
      · rw [here.1, here.2, same]
      · rfl
    rw [if_neg (fun wrong => wrong same), kept, decide_eq_false (fun wrong => wrong same),
      Bool.or_false]
  · rw [if_pos same, decide_eq_true same, Bool.or_true]

private theorem moveEntries_bucket (d : FlatTable shape) (idx : shape.Bucket)
    (lines : List shape.Line) (state : FlatTable shape × Bool) :
    ∃ moved, lines.foldlM (moveEntry d idx.val) state = .ok moved ∧
      (∀ line bucket, moved.1.get line bucket =
        if bucket = idx ∧ line ∈ lines then d.get line idx else state.1.get line bucket) ∧
      (moved.2 = true ↔ state.2 = true ∨ ∃ line ∈ lines, state.1.get line idx ≠ d.get line idx) := by
  induction lines generalizing state with
  | nil => exact ⟨state, rfl, by simp, by simp⟩
  | cons head rest ih =>
    rw [List.foldlM_cons, moveEntry_bucket]
    obtain ⟨moved, done, cells, flag⟩ := ih (state.1.set head idx (d.get head idx),
      state.2 || decide (state.1.get head idx ≠ d.get head idx))
    refine ⟨moved, done, fun line bucket => ?_, ?_⟩
    · rw [cells line bucket, Grid.get_set]
      by_cases here : bucket = idx
      · by_cases first : line = head
        · simp [here, first]
        · simp [here, first]
      · simp [here]
    · rw [flag, Bool.or_eq_true, decide_eq_true_iff, or_assoc]
      refine or_congr_right ?_
      rw [List.exists_mem_cons_iff]
      by_cases ne : state.1.get head idx ≠ d.get head idx
      · simp only [ne, ne_eq, not_false_eq_true, true_or]
      · have same := Decidable.not_not.mp ne
        simp only [same, ne_eq, not_true_eq_false, false_or, Grid.get_set, and_true]
        refine exists_congr (fun line => and_congr_right (fun _ => ?_))
        by_cases first : line = head
        · simp [first, same]
        · simp [first]

theorem moveRow_bucket (idx : shape.Bucket) :
    shape.lines.foldlM (moveEntry d idx.val) (m, false) =
      .ok (movedRow m d idx, decide (Differs m d idx)) := by
  obtain ⟨moved, done, cells, flag⟩ := moveEntries_bucket d idx shape.lines (m, false)
  have every : ∀ line : shape.Line, line ∈ shape.lines := fun line => List.mem_finRange line
  have tables : moved.1 = movedRow m d idx := by
    apply Grid.ext
    intro line bucket
    rw [cells, get_movedRow]
    by_cases here : bucket = idx
    · rw [if_pos ⟨here, every line⟩, if_pos here]
    · rw [if_neg (fun both => here both.1), if_neg here]
  have flags : moved.2 = decide (Differs m d idx) := by
    rw [Bool.eq_iff_iff, flag, decide_eq_true_iff]
    constructor
    · rintro (wrong | ⟨line, -, ne⟩)
      · cases wrong
      · exact ⟨line, ne⟩
    · rintro ⟨line, ne⟩
      exact Or.inr ⟨line, every line, ne⟩
  rw [done, ← tables, ← flags]

namespace GroupInfo

def moveBucket (group : GroupInfo shape) (idx : shape.Bucket) (migrateMachine : CounterMap UInt64) :
    GroupInfo shape :=
  { group with
    mHashTable := movedRow group.mHashTable group.dHashTable idx
    migrateBlockCount := group.migrateBlockCount - 1
    migrateMachine := migrateMachine
    shouldSynMigInfo := true }

inductive ReportStep (group : GroupInfo shape) (idx : shape.Bucket) (serverId : UInt64) :
    Except Fault (GroupInfo shape) → Prop
  | stays (idle : group.isMigrating = false ∨ group.mHashTable.get shape.master idx ≠ serverId ∨
        ¬Differs group.mHashTable group.dHashTable idx) :
      ReportStep group idx serverId (.ok group)
  | moves (migrating : group.isMigrating = true)
      (master : group.mHashTable.get shape.master idx = serverId)
      (differs : Differs group.mHashTable group.dHashTable idx) (migrateMachine : CounterMap UInt64)
      (dropped : group.migrateMachine.drop serverId = some migrateMachine) :
      ReportStep group idx serverId (.ok (group.moveBucket idx migrateMachine))
  | fails (migrating : group.isMigrating = true)
      (master : group.mHashTable.get shape.master idx = serverId)
      (differs : Differs group.mHashTable group.dHashTable idx)
      (missing : group.migrateMachine.drop serverId = none) :
      ReportStep group idx serverId (.error .assertFailed)

theorem setMigratingHashtable_step (group : GroupInfo shape) (idx : shape.Bucket) (id : UInt64) :
    ReportStep group idx id (group.setMigratingHashtable idx.val id) := by
  have small : ¬idx.val > shape.bucketCount := Nat.not_lt.mpr (Nat.le_of_lt idx.isLt)
  unfold setMigratingHashtable
  by_cases idle : group.isMigrating = false
  · rw [if_pos (Or.inr idle)]
    exact .stays (Or.inl idle)
  · rw [if_neg (fun either => either.elim small idle), entryAt_master]
    change ReportStep group idx id (if group.mHashTable.get shape.master idx ≠ id then
      .ok group else _)
    by_cases master : group.mHashTable.get shape.master idx = id
    · rw [if_neg (fun wrong => wrong master), moveRow_bucket]
      change ReportStep group idx id
        (if decide (Differs group.mHashTable group.dHashTable idx) = true then _ else .ok group)
      by_cases ne : Differs group.mHashTable group.dHashTable idx
      · rw [if_pos (decide_eq_true ne)]
        cases lost : group.migrateMachine.drop id with
        | none => exact .fails (Bool.not_eq_false _ ▸ idle) master ne lost
        | some machine =>
          exact .moves (Bool.not_eq_false _ ▸ idle) master ne machine lost
      · rw [if_neg (fun wrong => ne (of_decide_eq_true wrong))]
        exact .stays (Or.inr (Or.inr ne))
    · rw [if_pos master]
      exact .stays (Or.inr (Or.inl master))

theorem entryAt_error {table : FlatTable shape} {index : Nat} {fault : Fault}
    (failed : entryAt table index = .error fault) : fault = .pastTable := by
  unfold entryAt at failed
  split_ifs at failed
  exact (Except.error.inj failed).symm

theorem moveEntry_error {d : FlatTable shape} {bucket : Nat} {state : FlatTable shape × Bool}
    {line : shape.Line} {fault : Fault} (failed : moveEntry d bucket state line = .error fault) :
    fault = .pastTable := by
  rcases error_of_bind failed with current | ⟨held, -, failed⟩
  · exact entryAt_error current
  rcases error_of_bind failed with target | ⟨wanted, -, failed⟩
  · exact entryAt_error target
  · change ite _ _ _ = _ at failed
    split_ifs at failed
    · cases failed
    · cases failed

/-- With the number of buckets as its number the loop ends behind the table. -/
theorem moveRow_overruns (d : FlatTable shape) (state : FlatTable shape × Bool) :
    shape.lines.foldlM (moveEntry d shape.bucketCount) state = .error .pastTable := by
  cases moved : shape.lines.foldlM (moveEntry d shape.bucketCount) state with
  | error fault =>
    have only : ∀ (lines : List shape.Line) (state : FlatTable shape × Bool),
        lines.foldlM (moveEntry d shape.bucketCount) state = .error fault →
          fault = .pastTable := by
      intro lines
      induction lines with
      | nil => exact fun state failed => nomatch failed
      | cons line rest ih =>
        intro state failed
        rcases error_of_bind ((List.foldlM_cons ..).symm.trans failed) with ran | ⟨next, -, rest⟩
        · exact moveEntry_error ran
        · exact ih next rest
    rw [only _ _ moved]
  | ok tables =>
    have pos := shape.copyPositive
    obtain ⟨here, next, ran⟩ := Scan.foldlM_each moved
      (List.mem_finRange (⟨shape.copyCount - 1, by omega⟩ : shape.Line))
    have past : entryAt here.1 ((shape.copyCount - 1) * shape.bucketCount + shape.bucketCount) =
        .error .pastTable := by
      apply dif_neg
      rw [← Nat.succ_mul]
      have last : Nat.succ (shape.copyCount - 1) = shape.copyCount := by omega
      rw [last]
      exact Nat.lt_irrefl _
    unfold moveEntry at ran
    dsimp only at ran
    rw [past] at ran
    cases ran

variable {group seen : GroupInfo shape} {builder : TableBuilder δ} {rebuilding : Rebuilding shape}

/-- The number of buckets is let through. What decides then is the entry behind the first line. -/
theorem setMigratingHashtable_end (id : UInt64) (migrating : group.isMigrating = true) :
    (∃ holder, entryAt group.mHashTable shape.bucketCount = .ok holder ∧ holder ≠ id ∧
      group.setMigratingHashtable shape.bucketCount id = .ok group) ∨
    ((∀ holder, entryAt group.mHashTable shape.bucketCount = .ok holder → holder = id) ∧
      group.setMigratingHashtable shape.bucketCount id = .error .pastTable) := by
  have passes : ¬(shape.bucketCount > shape.bucketCount ∨ group.isMigrating = false) := by
    rw [migrating]
    simp
  unfold setMigratingHashtable
  rw [if_neg passes]
  cases current : entryAt group.mHashTable shape.bucketCount with
  | error fault =>
    rw [entryAt_error current]
    exact Or.inr ⟨fun holder absent => (nomatch absent), rfl⟩
  | ok holder =>
    by_cases same : holder = id
    · refine Or.inr ⟨fun other found => (Except.ok.inj found).symm.trans same, ?_⟩
      change ite (holder ≠ id) _ _ = _
      rw [if_neg (fun ne => ne same), moveRow_overruns]
      rfl
    · exact Or.inl ⟨holder, rfl, same, if_pos same⟩

theorem setMigratingHashtable_ok {next : GroupInfo shape} {bucket : Nat} {id : UInt64}
    (result : group.setMigratingHashtable bucket id = .ok next) :
    next = group ∨ ∃ (idx : shape.Bucket) (moving : CounterMap UInt64),
      bucket = idx.val ∧ group.isMigrating = true ∧
        group.mHashTable.get shape.master idx = id ∧
        Differs group.mHashTable group.dHashTable idx ∧
        next = group.moveBucket idx moving := by
  rcases Nat.lt_trichotomy bucket shape.bucketCount with inside | rfl | beyond
  · have step := group.setMigratingHashtable_step ⟨bucket, inside⟩ id
    rw [result] at step
    cases step with
    | stays idle => exact Or.inl rfl
    | moves migrating master ne moving lost =>
      exact Or.inr ⟨⟨bucket, inside⟩, moving, rfl, migrating, master, ne, rfl⟩
  · left
    cases migrating : group.isMigrating with
    | false =>
      rw [setMigratingHashtable, if_pos (Or.inr migrating)] at result
      exact (Except.ok.inj result).symm
    | true =>
      rcases setMigratingHashtable_end id migrating with ⟨holder, -, -, same⟩ | ⟨-, same⟩
      · rw [same] at result
        exact (Except.ok.inj result).symm
      · rw [same] at result
        cases result
  · rw [setMigratingHashtable, if_pos (Or.inl beyond)] at result
    exact Or.inl (Except.ok.inj result).symm

/-! ### The first part of `rebuild` -/

def upAvailable (config : GroupConfig) (up : UpnodeList) : ServerIdType → Bool :=
  (((TableBuilder.construct 0 ()).setPosMask config.posMask).setAvailableServer
    up.serverIds).isNodeAvailble

theorem upAvailable_iff {config : GroupConfig} {up : UpnodeList} {node : ServerIdType} :
    upAvailable config up node = true ↔
      node.first ∈ up.serverIds ∧ node = nodeOf config.posMask node.first := by
  unfold upAvailable
  rw [TableBuilder.isNodeAvailble_iff, TableBuilder.mem_setAvailableServer]
  constructor
  · rintro ⟨-, id, listed, same⟩
    have first : node.first = id := (congrArg ServerIdType.first same).symm
    rw [first]
    exact ⟨listed, same.symm⟩
  · rintro ⟨listed, same⟩
    exact ⟨up.real node.first listed, node.first, listed, same.symm⟩

theorem upAvailable_unset (config : GroupConfig) (up : UpnodeList) (position : UInt32) :
    upAvailable config up ⟨invalidFlag, position⟩ = false := rfl

def QuickRow (available : ServerIdType → Bool) (source quick : shape.Line → ServerIdType) : Prop :=
  ∃ row, Promoted available source row ∧ quick = swept available row

def NeedsQuick (group : GroupInfo shape) : Prop :=
  group.config.dataNeedMove = tairDataNeedMigrate ∧ shape.copyCount > 1 ∧ group.firstRun = false

def loadedRow (group : GroupInfo shape) (idx : shape.Bucket) : shape.Line → ServerIdType :=
  fun line => nodeOf group.config.posMask (group.mHashTable.get line idx)

theorem quickWork_some {source : HashTable shape} {quick : Work shape δ}
    (nonneg : ∀ node, 0 ≤ builder.mtokens.count node)
    (found : group.quickWork builder source = some quick) :
    quick.builder.availableServer = builder.availableServer ∧
      (group.NeedsQuick → ∀ idx, QuickRow builder.isNodeAvailble
        (fun line => source.get line idx) (quick.row idx)) ∧
      (¬group.NeedsQuick → quick.table = source) := by
  unfold quickWork at found
  by_cases needed : group.config.dataNeedMove = tairDataNeedMigrate ∧ shape.copyCount > 1 ∧
      group.firstRun = false
  · rw [if_pos needed] at found
    rcases Work.buildQuickTable_cases builder source nonneg with
      ⟨result, ok, servers, rows⟩ | ⟨⟨ended, failed⟩, -⟩
    · rw [ok] at found
      cases found
      exact ⟨servers, fun _ => rows, fun not => absurd needed not⟩
    · rw [failed] at found
      cases found
  · rw [if_neg needed] at found
    cases found
    exact ⟨rfl, fun yes => absurd yes needed, fun _ => rfl⟩

theorem buildWith_some
    {rebuildTable : TableBuilder δ → HashTable shape → Option (TableBuilder.Rebuilt shape δ)}
    (result : group.buildWith builder rebuildTable = .ok (seen, some rebuilding)) :
    seen = group ∧ ∃ quick rebuilt,
      group.quickWork builder (builder.loadHashTable group.mHashTable) = some quick ∧
      rebuildTable quick.builder (builder.loadHashTable group.mHashTable) = some rebuilt ∧
      rebuilding = ⟨group.firstRun, builder.loadHashTable group.mHashTable, quick.table,
        rebuilt.work.table, rebuilt.code⟩ := by
  unfold buildWith at result
  dsimp only at result
  split at result
  · cases result
  next quick quickly =>
    split at result
    · cases result
    next rebuilt built =>
      cases result
      exact ⟨rfl, quick, rebuilt, quickly, built, rfl⟩

/-- What the first part of `rebuild` hands to the second. -/
structure Taken (group : GroupInfo shape) (up : UpnodeList) (rebuilding : Rebuilding shape) :
    Prop where
  firstRun : rebuilding.firstRun = group.firstRun
  quick : group.NeedsQuick → ∀ idx, QuickRow (upAvailable group.config up) (group.loadedRow idx)
    (fun line => rebuilding.quickTable.get line idx)
  copied : ¬group.NeedsQuick → ∀ idx,
    (fun line => rebuilding.quickTable.get line idx) = group.loadedRow idx

theorem taken_of_buildWith
    {rebuildTable : TableBuilder δ → HashTable shape → Option (TableBuilder.Rebuilt shape δ)}
    (up : UpnodeList) (result : group.buildWith builder rebuildTable = .ok (seen, some rebuilding))
    (nonneg : ∀ node, 0 ≤ builder.mtokens.count node)
    (servers : builder.isNodeAvailble = upAvailable group.config up)
    (mask : builder.posMask = group.config.posMask) : Taken group up rebuilding := by
  obtain ⟨-, quick, rebuilt, quickly, -, rfl⟩ := buildWith_some result
  obtain ⟨-, rows, copied⟩ := quickWork_some nonneg quickly
  have loaded : ∀ idx, (fun line => (builder.loadHashTable group.mHashTable).get line idx) =
      group.loadedRow idx := by
    intro idx
    funext line
    unfold TableBuilder.loadHashTable loadedRow
    rw [Grid.get_map, mask]
  refine ⟨rfl, fun needed idx => ?_, fun idle idx => ?_⟩
  · rw [← servers, ← loaded]
    exact rows needed idx
  · rw [← loaded, copied idle]

theorem mcount_construct (limit : Int) (derived : δ) (node : ServerIdType) :
    0 ≤ (TableBuilder.construct limit derived).mtokens.count node :=
  Int.le_of_eq TreeMap.getD_emptyc.symm

def withServers (group : GroupInfo shape) (up : UpnodeList) : GroupInfo shape :=
  { group with
    availableServer := up.serverIds.foldl (fun servers serverId => servers.insert serverId) ∅ }

/-- A rebuild that goes on has changed nothing but the list of servers. -/
theorem rebuildSnapshot_some {fresh : Fresh} {up : UpnodeList}
    (result : group.rebuildSnapshot fresh up = .ok (seen, some rebuilding)) :
    seen = group.withServers up ∧ Taken group up rebuilding := by
  unfold rebuildSnapshot at result
  dsimp only at result
  split_ifs at result with few first second
  · cases result
  · obtain ⟨same, -⟩ := buildWith_some result
    have nonneg : ∀ node, 0 ≤ (builder1 group.config fresh up).mtokens.count node :=
      mcount_construct fresh.maxCountNow fresh.limits
    have taken := taken_of_buildWith up result nonneg rfl rfl
    exact ⟨same, taken.firstRun, taken.quick, taken.copied⟩
  · obtain ⟨same, -⟩ := buildWith_some result
    have nonneg : ∀ node, 0 ≤ (builder2 shape group.config fresh up).mtokens.count node :=
      mcount_construct fresh.maxCountNow fresh.rooms
    have taken := taken_of_buildWith up result nonneg rfl rfl
    exact ⟨same, taken.firstRun, taken.quick, taken.copied⟩
  · cases result

/-! ### The second part of `rebuild` -/

theorem mem_withServers (group : GroupInfo shape) (up : UpnodeList) (id : UInt64) :
    (group.withServers up).availableServer.contains id = true ↔ id ∈ up.serverIds := by
  suffices every : ∀ (ids : List UInt64) (servers : TreeSet UInt64 compare),
      id ∈ ids.foldl (fun servers other => servers.insert other) servers ↔
        id ∈ servers ∨ id ∈ ids by
    rw [← TreeSet.mem_iff_contains]
    change id ∈ up.serverIds.foldl _ ∅ ↔ _
    rw [every]
    simp
  intro ids
  induction ids with
  | nil => simp
  | cons head rest ih =>
    intro servers
    rw [List.foldl_cons, ih, TreeSet.mem_insert, LawfulEqCmp.compare_eq_iff_eq, List.mem_cons,
      or_comm (a := head = id), or_assoc, eq_comm (a := head)]

theorem rebuildCommit_tables (group : GroupInfo shape) (built : rebuilding.ret ≠ .buildError) :
    (group.rebuildCommit rebuilding).hashTable = group.migratedFrom rebuilding ∧
      (group.rebuildCommit rebuilding).mHashTable = group.migratedFrom rebuilding ∧
      (group.rebuildCommit rebuilding).dHashTable = writeHashTable rebuilding.destHashTable := by
  unfold rebuildCommit
  rw [if_neg built]
  exact ⟨rfl, rfl, rfl⟩

theorem migratedFrom_quick (migrate : group.config.dataNeedMove = tairDataNeedMigrate)
    (again : rebuilding.firstRun = false) (several : shape.copyCount > 1) :
    group.migratedFrom rebuilding = writeHashTable rebuilding.quickTable := by
  unfold migratedFrom
  dsimp only
  rw [if_pos ⟨migrate, again⟩, if_neg (Nat.not_le.mpr several)]

theorem migratedFrom_single (migrate : group.config.dataNeedMove = tairDataNeedMigrate)
    (again : rebuilding.firstRun = false) (single : shape.copyCount ≤ 1) (line : shape.Line)
    (idx : shape.Bucket) :
    (group.migratedFrom rebuilding).get line idx =
      if group.availableServer.contains (rebuilding.quickTable.get line idx).first then
        (rebuilding.quickTable.get line idx).first
      else (rebuilding.destHashTable.get line idx).first := by
  unfold migratedFrom writeHashTable
  dsimp only
  rw [if_pos ⟨migrate, again⟩, if_pos single, Grid.get_ofFn, Grid.get_map, Grid.get_map]

end GroupInfo

/-- A group with one table and nothing to migrate, for runs that are computed. -/
def GroupInfo.atRest (minDataServerCount : Nat) (owner : shape.Line → shape.Bucket → UInt64) :
    GroupInfo shape where
  config := ⟨tairDataNeedMigrate, 10, minDataServerCount, 1, .finite (3 / 5),
    TableBuilder.tairPosMask⟩
  hashTable := Grid.ofFn owner
  mHashTable := Grid.ofFn owner
  dHashTable := Grid.ofFn owner
  clientVersion := 11
  serverVersion := 11
  areaCapacityVersion := 11
  migrateBlockCount := -1
  migrateMachine := ∅
  availableServer := ∅
  reportedServerid := ∅
  shouldSynMigInfo := false
  groupCanWork := true
  groupIsOK := true

end Tair.ConfigServer
