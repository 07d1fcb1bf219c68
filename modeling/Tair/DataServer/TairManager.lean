/-
A data server between its config server and its clients. Every table starts a migration, and every
finished bucket is reported and marked. Requests for a marked bucket are sent to the server that
has it now, as far as a request asks at all.
-/

import Tair.ConfigServer.Heartbeat
import Tair.DataServer.TableManager

namespace Tair.DataServer

open Std
open Tair.ConfigServer (Fault RequestHeartbeat ResponseHeartbeat)

inductive Status where
  | notInited
  | inited
  | canWork
deriving DecidableEq, Repr

def tairConfigMinVersion : UInt32 := 10

structure TableUpdate where
  serverTable : Array UInt64
  serverTableVersion : UInt32
  currentStateTable : Array UInt64
  copyCount : Nat
  bucketCount : Nat

/-- `waiting` is the bucket whose report has not been answered. -/
structure MigrateManager where
  migrateServers : BucketServerMap
  tempServers : BucketServerMap
  version : UInt32
  waiting : Option Nat

/-- The members of the table manager, of the migrate manager and of the heartbeat
thread are kept with those of `tair_manager`. Between the two halves of
`update_server_table` the server is `updating`. -/
structure TairManager where
  tableMgr : TableManager
  migrateMgr : MigrateManager
  migrateDoneSet : DoneSet
  status : Status
  localmode : Bool
  serverVersion : UInt32
  updaters : List TableUpdate
  updating : Bool

inductive ServerFlag where
  | client
  | duplicate
  | migrate
  | proxy
deriving DecidableEq, Repr

/-- Requests of clients, and those passed on by another server. -/
def needCopy (flag : ServerFlag) : Bool := flag = .client ∨ flag = .proxy

/-- `commands` are the requests that go through `process_before`. -/
inductive RequestKind where
  | get
  | remove
  | put
  | putnx
  | incDec
  | existsKey
  | lrpush
  | lrpop
  | lrpushLimit
  | commands
deriving DecidableEq, Repr

/-- `keyHash` is the hash of the key; `hashCode` is what the client sends for it, -1
when it sends nothing. -/
structure Request where
  kind : RequestKind
  keyHash : UInt32
  hashCode : Int

/-- Whether `should_proxy` is asked at all. -/
def Request.asks (req : Request) : Bool :=
  match req.kind with
  | .get | .remove => false
  | .lrpushLimit => req.hashCode ≠ 0
  | .put | .putnx | .incDec | .existsKey | .lrpush | .lrpop | .commands => req.hashCode ≠ -1

inductive Answer where
  | serverCanNotWork
  | shouldProxy
  | servedLocally
deriving DecidableEq, Repr

namespace TairManager

def started : TairManager where
  tableMgr := .construct
  migrateMgr := ⟨∅, ∅, 0, none⟩
  migrateDoneSet := #[]
  status := .inited
  localmode := false
  serverVersion := 0
  updaters := []
  updating := false

/-! ### Heartbeats -/

variable (server : TairManager)

def isWorking : Bool := server.status = .canWork

def requestHeartbeat (localIp : UInt64) : RequestHeartbeat where
  serverId := localIp
  configVersion := server.serverVersion
  pullMigratedInfo := !server.isWorking
  vecBucketNo := server.migrateDoneSet.members.map UInt32.ofNat

/-- A migration that runs is stopped, and its last report is not waited for. -/
def doServerListChanged : TairManager :=
  { server with migrateMgr := { server.migrateMgr with tempServers := ∅, waiting := none } }

def setSolitary : TairManager :=
  if server.status = .canWork then
    { server with
      status := .inited
      tableMgr := { server.tableMgr with availableServerIds := ∅ } }.doServerListChanged
  else server

/-- The answer to a heartbeat. A new version is remembered even without a table. -/
def handlePacket (resp : ResponseHeartbeat) : TairManager :=
  if server.localmode then server
  else if resp.serverVersion = 1 then { server.setSolitary with serverVersion := 1 }
  else if resp.serverVersion ≥ tairConfigMinVersion ∧
      resp.serverVersion ≠ server.serverVersion then
    match resp.serverList with
    | none => { server with serverVersion := resp.serverVersion }
    | some table => { server with
        serverVersion := resp.serverVersion
        updaters := server.updaters ++ [⟨table, resp.serverVersion, resp.migratedInfo.toArray,
          resp.copyCount, resp.bucketCount⟩] }
  else server

/-! ### New tables -/

/-- The marks for a new table. Only a server that does not work yet takes those of the
migration from the config server. -/
def freshDoneSet (tableMgr : TableManager) (currentStateTable : Array UInt64) :
    Except Fault DoneSet :=
  if server.status = .canWork then .ok (Array.replicate tableMgr.bucketCount false)
  else tableMgr.initMigrateDoneSet (Array.replicate tableMgr.bucketCount false) currentStateTable

/-- The first half of `update_server_table`. -/
def updateServerTable (localIp : UInt64) (update : TableUpdate) :
    Except Fault TairManager := do
  let tableMgr ← server.tableMgr.doUpdateTable localIp update.serverTable
    update.serverTableVersion update.copyCount update.bucketCount
  let done ← server.freshDoneSet tableMgr update.currentStateTable
  return { server with
    tableMgr := tableMgr
    migrateDoneSet := done
    status := .canWork
    updating := true }

/-- The second half. The buckets that are marked already are not migrated again. -/
def startMigration : TairManager :=
  let stopped := { server.doServerListChanged with updating := false }
  if server.tableMgr.migrates.isEmpty then stopped
  else { stopped with migrateMgr := { stopped.migrateMgr with
    migrateServers := server.tableMgr.migrates.filter (fun bucket _ =>
      server.migrateDoneSet[bucket]? ≠ some true)
    version := server.tableMgr.tableVersion } }

/-! ### Migration -/

def doRun : TairManager :=
  if server.migrateMgr.tempServers.isEmpty then
    { server with migrateMgr := { server.migrateMgr with
      migrateServers := ∅
      tempServers := server.migrateMgr.migrateServers } }
  else server

def finishMigrateBucket (bucket : Nat) : Option TairManager :=
  if server.migrateMgr.tempServers.contains bucket ∧
      (server.migrateMgr.waiting = none ∨ server.migrateMgr.waiting = some bucket) then
    some { server with migrateMgr := { server.migrateMgr with waiting := some bucket } }
  else none

def setMigrateDone (bucket : Nat) : Except Fault TairManager :=
  (fun done => { server with migrateDoneSet := done }) <$> server.migrateDoneSet.mark bucket

def finishReturned (bucket : Nat) (accepted : Bool) : Except Fault TairManager :=
  let answered := { server with migrateMgr := { server.migrateMgr with
    tempServers := server.migrateMgr.tempServers.erase bucket
    waiting := none } }
  if accepted then answered.setMigrateDone bucket else .ok answered

/-! ### Requests -/

def shouldProxy (localIp : UInt64) (hashcode : UInt32) : Except Fault (Option UInt64) :=
  if server.localmode then .ok none
  else do
    let bucketNumber := hashcode.toNat % server.tableMgr.bucketCount
    let isMigrated ← server.migrateDoneSet.test bucketNumber
    if isMigrated then
      let target ← server.tableMgr.getMigrateTarget bucketNumber
      return if target = localIp ∨ target = 0 then none else some target
    else return none

def process (localIp : UInt64) (req : Request) : Except Fault Answer :=
  if server.isWorking = false then .ok .serverCanNotWork
  else if req.asks then
    (fun target => if target.isSome then .shouldProxy else .servedLocally) <$>
      server.shouldProxy localIp (UInt32.ofNat (req.hashCode % 2 ^ 32).toNat)
  else .ok .servedLocally

def getBucketNumber (hashcode : UInt32) : Nat :=
  hashcode.toNat % server.tableMgr.bucketCount

def getSlaves (server : TairManager) (localIp : UInt64) (serverFlag : ServerFlag)
    (bucketNumber : Nat) : Except Fault (List UInt64) :=
  if server.tableMgr.copyCount = 1 then .ok []
  else if serverFlag = .proxy then server.tableMgr.getSlaves localIp bucketNumber true
  else do
    let migrated ← server.migrateDoneSet.test bucketNumber
    server.tableMgr.getSlaves localIp bucketNumber migrated

end TairManager

end Tair.DataServer
