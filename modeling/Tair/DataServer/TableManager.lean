/-
The tables of a data server. From the published table and the one the migration leads to it finds
the buckets it holds, will get, can close and has to migrate, with the servers new to each.
-/

import Tair.ConfigServer.GroupInfo

namespace Tair.DataServer

open Std
open Tair.ConfigServer (Fault)

abbrev BucketServerMap := TreeMap Nat (List UInt64)

def readAt (table : Array UInt64) (index : Nat) : Except Fault UInt64 :=
  match table[index]? with
  | some value => .ok value
  | none => .error .pastTable

/-- There is no table before the first one arrives. -/
structure TableManager where
  serverTable : Option (Array UInt64)
  tableVersion : UInt32
  copyCount : Nat
  bucketCount : Nat
  holdingBuckets : List Nat
  paddingBuckets : List Nat
  releaseBuckets : List Nat
  availableServerIds : TreeSet UInt64
  migrates : BucketServerMap

namespace TableManager

def construct : TableManager := ⟨none, 0, 0, 0, [], [], [], ∅, ∅⟩

variable (manager : TableManager) (localIp : UInt64) (newTable : Array UInt64)

def hashTableSize : Nat := manager.bucketCount * manager.copyCount

def getServerTable : Except Fault (Array UInt64) :=
  match manager.serverTable with
  | some table => .ok table
  | none => .error .assertFailed

def getMigrateTarget (bucketNumber : Nat) : Except Fault UInt64 := do
  readAt (← manager.getServerTable) (bucketNumber + manager.hashTableSize)

/-- The servers behind this one in the row of a bucket. The loop looks at one place even
where there is a single copy. -/
def getSlaves (bucketNumber : Nat) (isMigrating : Bool) :
    Except Fault (List UInt64) := do
  let table ← manager.getServerTable
  let row := if isMigrating then bucketNumber + manager.hashTableSize else bucketNumber
  let master ← readAt table row
  if master ≠ localIp then return []
  let sids ← (List.range' 1 (max 1 (manager.copyCount - 1))).mapM (fun k =>
    readAt table (row + manager.bucketCount * k))
  return sids.filter (· ≠ 0)

/-! ### A new table -/

/-- The inner loop of `calculate_migrates`, which stops at the first match. -/
def holdsCopy (table : Array UInt64) (index : Nat) (dest : UInt64) : Except Fault Bool :=
  (List.range manager.copyCount).anyM (fun j =>
    (fun source => decide (dest = source)) <$> readAt table (index + manager.bucketCount * j))

def addMigrate (table : Array UInt64) (index : Nat) (migrates : BucketServerMap) (i : Nat) :
    Except Fault BucketServerMap := do
  let dest ← readAt table (manager.hashTableSize + (index + manager.bucketCount * i))
  let held ← manager.holdsCopy table index dest
  if held then return migrates
  else return migrates.insert index (migrates.getD index [] ++ [dest])

/-- A bucket that only changes its master migrates to nobody, but it is listed. -/
def calculateMigrates (table : Array UInt64) (index : Nat) :
    Except Fault BucketServerMap := do
  let migrates ← (List.range manager.copyCount).foldlM (manager.addMigrate table index)
    manager.migrates
  if migrates.contains index then return migrates
  let source ← readAt table index
  let dest ← readAt table (manager.hashTableSize + index)
  if source ≠ dest then return migrates.insert index []
  else return migrates

def takeEntry (state : TableManager × List Nat)
    (i : Nat) : Except Fault (TableManager × List Nat) := do
  let entry ← readAt newTable i
  let manager := { state.1 with availableServerIds := state.1.availableServerIds.insert entry }
  if entry ≠ localIp then return (manager, state.2)
  let holding := state.2 ++ [i % manager.bucketCount]
  if i < manager.bucketCount ∧ newTable.size > manager.hashTableSize then
    let migrates ← manager.calculateMigrates newTable i
    return ({ manager with migrates := migrates }, holding)
  else return (manager, holding)

/-- One turn of the loop over the table of the migration. -/
def padEntry (manager : TableManager) (i : Nat) :
    Except Fault TableManager := do
  let entry ← readAt newTable i
  let seen := { manager with availableServerIds := manager.availableServerIds.insert entry }
  if entry = localIp then
    return { seen with paddingBuckets := seen.paddingBuckets ++ [i % manager.bucketCount] }
  else return seen

/-- Both lists are sorted in place before they are compared. -/
def calculateReleaseBucket (holdingBuckets newHoldingBucket : List Nat) : List Nat :=
  (holdingBuckets.insertionSort (· ≤ ·)).diff (newHoldingBucket.insertionSort (· ≤ ·))

def withTable (copyCount bucketCount : Nat) : TableManager :=
  { manager with
    copyCount := copyCount
    bucketCount := bucketCount
    serverTable := some newTable
    paddingBuckets := []
    releaseBuckets := []
    migrates := ∅
    availableServerIds := ∅ }

def takeEntries : Except Fault (TableManager × List Nat) :=
  (List.range manager.hashTableSize).foldlM (takeEntry localIp newTable) (manager, [])

/-- Only a longer table has one for the migration. -/
def padEntries : Except Fault TableManager :=
  if newTable.size > manager.hashTableSize then
    (List.range' manager.hashTableSize manager.hashTableSize).foldlM (padEntry localIp newTable)
      manager
  else .ok manager

/-- Without buckets or copies the remainder is a division by zero, which stops the
process as the assertion does. -/
def doUpdateTable (tableVersion : UInt32)
    (copyCount bucketCount : Nat) : Except Fault TableManager :=
  if bucketCount * copyCount = 0 ∨ newTable.size % (bucketCount * copyCount) ≠ 0 then
    .error .assertFailed
  else do
    let taken ← (manager.withTable newTable copyCount bucketCount).takeEntries localIp newTable
    let padded ← taken.1.padEntries localIp newTable
    return { padded with
      releaseBuckets := calculateReleaseBucket padded.holdingBuckets taken.2
      holdingBuckets := taken.2.insertionSort (· ≤ ·)
      tableVersion := tableVersion }

end TableManager

/-! ### Migrated buckets -/

/-- The bits of `migrate_done_set`. -/
abbrev DoneSet := Array Bool

namespace DoneSet

def test (done : DoneSet) (bucket : Nat) : Except Fault Bool :=
  match done[bucket]? with
  | some bit => .ok bit
  | none => .error .pastTable

def mark (done : DoneSet) (bucket : Nat) : Except Fault DoneSet :=
  if bucket < done.size then .ok (done.setIfInBounds bucket true) else .error .pastTable

def members (done : DoneSet) : List Nat :=
  (List.range done.size).filter (fun bucket => done[bucket]? = some true)

end DoneSet

namespace TableManager

/-- The number of a bucket in a list of 64-bit entries is cast to an `int`. A
negative one is an index before the table. -/
def bucketOf (entry : UInt64) : Except Fault Nat :=
  if entry.toNat % 2 ^ 32 < 2 ^ 31 then .ok (entry.toNat % 2 ^ 32) else .error .pastTable

/-- Compares the row behind position `i` of the list with the row of the bucket. -/
def hasMigrated (manager : TableManager) (table currentStateTable : Array UInt64) (i bucket : Nat) :
    Except Fault Bool :=
  (List.range manager.copyCount).anyM (fun j => do
    let current ← readAt currentStateTable (i + 1 + j)
    let source ← readAt table (bucket + j * manager.bucketCount)
    return decide (current ≠ source))

/-- The list has the number of a bucket and its row, over and over. Every turn takes
at least one entry, so there are no more turns than entries. -/
def initFrom (manager : TableManager) (table currentStateTable : Array UInt64) :
    Nat → Nat → DoneSet → Except Fault DoneSet
  | 0, _, done => .ok done
  | turns + 1, i, done =>
    if i < currentStateTable.size then do
      let bucket ← bucketOf (← readAt currentStateTable i)
      let migrated ← manager.hasMigrated table currentStateTable i bucket
      let marked ← if migrated then done.mark bucket else pure done
      manager.initFrom table currentStateTable turns (i + 1 + manager.copyCount) marked
    else .ok done

def initMigrateDoneSet (manager : TableManager) (done : DoneSet)
    (currentStateTable : Array UInt64) : Except Fault DoneSet := do
  manager.initFrom (← manager.getServerTable) currentStateTable currentStateTable.size 0 done

end TableManager

end Tair.DataServer
