/-
A group of data servers on its config server. It keeps three tables: the published one, the one
that follows the migration bucket by bucket, and the one it leads to. `rebuild` gives its lock
back while the builder works on a copy, and writes what came out.
-/

import Tair.ConfigServer.TableBuilder1
import Tair.ConfigServer.TableBuilder2
import Tair.Library.CounterMap

namespace Tair.ConfigServer

open Std Tair.Library

/-- What stops the process, or would read and write beside the tables. -/
inductive Fault where
  | assertFailed
  | pastTable
deriving DecidableEq, Repr

def tairDataNeedMigrate : Int := 1

structure GroupConfig where
  dataNeedMove : Int
  minConfigVersion : UInt32
  minDataServerCount : Nat
  buildStrategy : Int
  diffRatio : TableBuilder2.ChangeRatio
  posMask : UInt64

structure GroupInfo (shape : Shape) where
  config : GroupConfig
  hashTable : FlatTable shape
  mHashTable : FlatTable shape
  dHashTable : FlatTable shape
  clientVersion : UInt32
  serverVersion : UInt32
  areaCapacityVersion : UInt32
  migrateBlockCount : Int
  migrateMachine : CounterMap UInt64
  availableServer : TreeSet UInt64
  reportedServerid : TreeSet UInt64
  shouldSynMigInfo : Bool
  groupCanWork : Bool
  groupIsOK : Bool

/-- What `get_up_node` finds. The addresses of a group are never 0. -/
structure UpnodeList where
  serverIds : List UInt64
  real : ∀ serverId ∈ serverIds, serverId ≠ invalidFlag

structure Fresh where
  maxCountNow : Int
  limits : TableBuilder1.Limits
  rooms : TableBuilder2.Rooms

/-- The local variables of `rebuild` while it does not hold the lock. -/
structure Rebuilding (shape : Shape) where
  firstRun : Bool
  hashTableForBuilder : HashTable shape
  quickTable : HashTable shape
  destHashTable : HashTable shape
  ret : BuildCode

variable {shape : Shape} {δ : Type}

/-! ### Buckets to migrate -/

/-- A bucket has to move when its master changes, or when it gets a slave that it
did not have. The order of the slaves does not matter here. -/
def migrateThisBucket (m d : FlatTable shape) (idx : shape.Bucket) : Bool :=
  if m.get shape.master idx ≠ d.get shape.master idx then true
  else shape.slaves.any (fun j => !shape.slaves.any (fun k => d.get j idx = m.get k idx))

/-- The servers with the number of buckets each of them has to migrate, and the
number of all these buckets. -/
def fillMigrateMachine (m d : FlatTable shape) : CounterMap UInt64 × Int :=
  shape.buckets.foldl (fun filled idx =>
    if m.get shape.master idx ≠ 0 ∧ migrateThisBucket m d idx then
      (filled.1.bump (m.get shape.master idx), filled.2 + 1)
    else filled) (∅, 0)

/-! ### Flat access -/

def entryAt (table : FlatTable shape) (index : Nat) : Except Fault UInt64 :=
  if inside : index < shape.copyCount * shape.bucketCount then
    .ok (table.cells.get ⟨index, inside⟩)
  else .error .pastTable

def writeAt (table : FlatTable shape) (index : Nat) (value : UInt64) : FlatTable shape :=
  if inside : index < shape.copyCount * shape.bucketCount then
    ⟨table.cells.set index value inside⟩
  else table

/-- One turn of the loop of `set_migrating_hashtable`; the flag is its `ret`. -/
def moveEntry (d : FlatTable shape) (bucketId : Nat) (state : FlatTable shape × Bool)
    (line : shape.Line) : Except Fault (FlatTable shape × Bool) := do
  let index := line.val * shape.bucketCount + bucketId
  let current ← entryAt state.1 index
  let target ← entryAt d index
  if current ≠ target then return (writeAt state.1 index target, true)
  else return state

namespace GroupInfo

/-! ### Versions -/

def incValue (config : GroupConfig) (value incStep : UInt32) : UInt32 :=
  if config.minConfigVersion > value + incStep then config.minConfigVersion else value + incStep

variable (group : GroupInfo shape)

def incVersion (incStep : UInt32) : GroupInfo shape :=
  { group with
    clientVersion := incValue group.config group.clientVersion incStep
    serverVersion := incValue group.config group.serverVersion incStep }

/-! ### Reports of the data servers -/

def isMigrating : Bool := group.migrateBlockCount ≠ -1

/-- The number of the bucket is compared with `>`, so the number of buckets itself
gets through. -/
def setMigratingHashtable (bucketId : Nat) (serverId : UInt64) : Except Fault (GroupInfo shape) :=
  if bucketId > shape.bucketCount ∨ group.isMigrating = false then .ok group
  else do
    let current ← entryAt group.mHashTable bucketId
    if current ≠ serverId then return group
    let moved ← shape.lines.foldlM (moveEntry group.dHashTable bucketId) (group.mHashTable, false)
    if moved.2 then
      match group.migrateMachine.drop serverId with
      | none => .error .assertFailed
      | some migrateMachine =>
        return { group with
          mHashTable := moved.1
          migrateBlockCount := group.migrateBlockCount - 1
          migrateMachine := migrateMachine
          shouldSynMigInfo := true }
    else return group

/-- The bucket arrives as an `int` and is handed on as a `size_t`. -/
def doFinishMigrate (serverId : UInt64) (serverVersion : UInt32) (bucketId : Int) :
    Except Fault (Bool × GroupInfo shape) :=
  if group.config.dataNeedMove ≠ tairDataNeedMigrate then .ok (false, group)
  else if serverVersion ≠ group.serverVersion then .ok (false, group)
  else
    (fun moved => (true, moved)) <$>
      group.setMigratingHashtable (bucketId % 2 ^ 64).toNat serverId

/-- Only the first heartbeat of a server in a migration is looked at. -/
def doProxyReport (serverId : UInt64) (vecBucketNo : List UInt32) :
    Except Fault (GroupInfo shape) :=
  if group.isMigrating = true ∧ group.reportedServerid.contains serverId = false then
    vecBucketNo.foldlM (fun group bucket => group.setMigratingHashtable bucket.toNat serverId)
      { group with reportedServerid := group.reportedServerid.insert serverId }
  else .ok group

/-- `down` tells which servers the group does not know or knows to be down. -/
def checkMigrateComplete (down : UInt64 → Bool) : Except Fault (Bool × GroupInfo shape) :=
  if group.config.dataNeedMove ≠ tairDataNeedMigrate ∨ group.migrateBlockCount = -1 then
    .ok (true, group)
  else if group.migrateMachine.isEmpty = false then
    if group.migrateMachine.keys.any down then .ok (true, group)
    else .ok (false, { group with shouldSynMigInfo := false })
  else if group.mHashTable ≠ group.dHashTable then .error .assertFailed
  else
    .ok (true, incVersion { group with
      hashTable := group.dHashTable
      migrateBlockCount := -1
      reportedServerid := ∅
      shouldSynMigInfo := false } 1)

def hardCheckMigrateComplete : GroupInfo shape :=
  if group.mHashTable = group.dHashTable then { group with migrateMachine := ∅ } else group

/-! ### `rebuild` -/

def selectBuildStrategy (shape : Shape) (config : GroupConfig) (avaServer : List UInt64) : Int :=
  let posCount := TableBuilder2.posCount config.posMask avaServer
  if posCount.size ≤ 1 then 1
  else if TableBuilder2.statNormal shape config.diffRatio avaServer.length
      (TableBuilder2.maxRoom posCount 0).1 then 2
  else 1

def usedStrategy (shape : Shape) (config : GroupConfig) (up : UpnodeList) : Int :=
  if config.buildStrategy = 3 then selectBuildStrategy shape config up.serverIds
  else config.buildStrategy

def firstRun : Bool := group.mHashTable.toList.all (· = 0)

/-- With several copies the quick table is built first, on the same builder. `none`
when there is a bucket that nobody holds. -/
def quickWork (builder : TableBuilder δ) (source : HashTable shape) : Option (Work shape δ) :=
  if group.config.dataNeedMove = tairDataNeedMigrate ∧ shape.copyCount > 1 ∧
      group.firstRun = false then
    match Work.buildQuickTable ⟨builder, source⟩ with
    | .ok quick => some quick
    | .error _ => none
  else some ⟨builder, source⟩

/-- `rebuild` from the choice of the builder to the second lock. What the builder
does in between touches its own copies only. -/
def buildWith (builder : TableBuilder δ)
    (rebuildTable : TableBuilder δ → HashTable shape → Option (TableBuilder.Rebuilt shape δ)) :
    Except Fault (GroupInfo shape × Option (Rebuilding shape)) :=
  let source := builder.loadHashTable group.mHashTable
  match group.quickWork builder source with
  | none => .ok (incVersion { group with groupIsOK := false } 1, none)
  | some quick =>
    match rebuildTable quick.builder source with
    | none => .error .assertFailed
    | some rebuilt =>
      .ok (group, some ⟨group.firstRun, source, quick.table, rebuilt.work.table, rebuilt.code⟩)

def builder1 (config : GroupConfig) (fresh : Fresh) (up : UpnodeList) :
    TableBuilder TableBuilder1.Limits :=
  ((TableBuilder.construct fresh.maxCountNow fresh.limits).setPosMask
    config.posMask).setAvailableServer up.serverIds

def builder2 (shape : Shape) (config : GroupConfig) (fresh : Fresh) (up : UpnodeList) :
    TableBuilder TableBuilder2.Rooms :=
  TableBuilder2.setAvailableServer shape
    ((TableBuilder.construct fresh.maxCountNow
      { fresh.rooms with statChangeRatio := config.diffRatio }).setPosMask config.posMask)
    up.serverIds

/-- The first part of `rebuild`. With a strategy that does not exist the source
returns without giving the lock back. -/
def rebuildSnapshot (fresh : Fresh) (up : UpnodeList) :
    Except Fault (GroupInfo shape × Option (Rebuilding shape)) :=
  let seen := { group with
    availableServer := up.serverIds.foldl (fun servers serverId => servers.insert serverId) ∅ }
  if up.serverIds.length < group.config.minDataServerCount then .ok (seen.incVersion 1, none)
  else if usedStrategy shape group.config up = 1 then
    seen.buildWith (builder1 group.config fresh up)
      (fun builder source => some (builder.rebuildTable (TableBuilder1.strategy shape) source true))
  else if usedStrategy shape group.config up = 2 then
    seen.buildWith (builder2 shape group.config fresh up)
      (fun builder source => TableBuilder2.rebuildTable builder source source true)
  else .ok (seen, none)

/-- The tables `rebuild` writes for the migration and for the clients. With one
copy there is no quick table, and a bucket of a dead server starts anew. -/
def migratedFrom (rebuilding : Rebuilding shape) : FlatTable shape :=
  let d := writeHashTable rebuilding.destHashTable
  let quick := writeHashTable rebuilding.quickTable
  if group.config.dataNeedMove = tairDataNeedMigrate ∧ rebuilding.firstRun = false then
    if shape.copyCount ≤ 1 then
      Grid.ofFn (fun line idx =>
        if group.availableServer.contains (quick.get line idx) then quick.get line idx
        else d.get line idx)
    else quick
  else d

/-- The second part of `rebuild`. -/
def rebuildCommit (rebuilding : Rebuilding shape) : GroupInfo shape :=
  if rebuilding.ret = .buildError then
    incVersion { group with groupCanWork := false, groupIsOK := false } 1
  else
    let m := group.migratedFrom rebuilding
    let d := writeHashTable rebuilding.destHashTable
    let filled :=
      if rebuilding.firstRun then (group.migrateMachine, 0) else fillMigrateMachine m d
    incVersion { group with
      hashTable := m
      mHashTable := m
      dHashTable := d
      migrateMachine := filled.1
      migrateBlockCount := if filled.2 > 0 then filled.2 else -1
      areaCapacityVersion := incValue group.config group.areaCapacityVersion 1
      groupCanWork := true
      groupIsOK := true } 1

end GroupInfo

end Tair.ConfigServer
