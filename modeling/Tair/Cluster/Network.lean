/-
One config server and its data servers. Packets in between may arrive in any order, late or never.
-/

import Tair.DataServer.TairManager

namespace Tair

open Std Tair.Library Tair.ConfigServer Tair.DataServer

variable {shape : Shape}

inductive Packet where
  | requestHeartbeat (req : RequestHeartbeat)
  | responseHeartbeat (serverId : UInt64) (resp : ResponseHeartbeat)
  | requestMigrateFinish (serverId : UInt64) (version : UInt32) (bucketNo : Nat)
  | responseReturn (serverId : UInt64) (bucketNo : Nat) (accepted : Bool)

/-- `handedOver` is not part of the program. It collects the servers with the buckets
they have marked while they worked. -/
structure Cluster (shape : Shape) where
  confServer : ServerConf shape
  servers : UInt64 → TairManager
  packets : List Packet
  handedOver : List (UInt64 × Nat)

/-- The events of the config server come first. `deliver` and `drop` name a packet by
its place, `updateServerTable` a thread that was started for a table. -/
inductive Event where
  | rebuildSnapshot (fresh : Fresh) (up : UpnodeList)
  | rebuildCommit
  | checkMigrateComplete (down : UInt64 → Bool)
  | hardCheckMigrateComplete
  | incVersion (incStep : UInt32)
  | setStatus (serverId : UInt64) (status : Option ServerStatus)
  | deliver (place : Nat)
  | drop (place : Nat)
  | sendHeartbeat (serverId : UInt64)
  | updateServerTable (serverId : UInt64) (thread : Nat)
  | startMigration (serverId : UInt64)
  | doRun (serverId : UInt64)
  | finishMigrateBucket (serverId : UInt64) (bucket : Nat)
  | restart (serverId : UInt64)

namespace Cluster

def start (group : GroupInfo shape) (acceptStrategy : Int)
    (dataServerInfo : UInt64 → Option ServerStatus) : Cluster shape where
  confServer := ⟨⟨group, none⟩, acceptStrategy, dataServerInfo⟩
  servers := fun _ => .started
  packets := []
  handedOver := []

variable (cluster : Cluster shape)

def withServer (serverId : UInt64) (server : TairManager) : Cluster shape :=
  { cluster with servers := Function.update cluster.servers serverId server }

def send (packet : Packet) : Cluster shape :=
  { cluster with packets := cluster.packets ++ [packet] }

def confStep (event : ConfEvent shape) : Except Fault (Cluster shape) :=
  (fun conf => { cluster with confServer := { cluster.confServer with conf := conf } }) <$>
    cluster.confServer.conf.step event

def noteDone (serverId : UInt64) (bucketNo : Nat) : Cluster shape :=
  if (cluster.servers serverId).isWorking then
    { cluster with handedOver := (serverId, bucketNo) :: cluster.handedOver }
  else cluster

/-- Whoever gets the packet deals with it. An answer to a report that nobody waits for
is dropped. -/
def receive : Packet → Except Fault (Cluster shape)
  | .requestHeartbeat req =>
    (fun answered => { cluster with confServer := answered.1 }.send
      (.responseHeartbeat req.serverId answered.2)) <$>
      cluster.confServer.doHeartbeatPacket req
  | .responseHeartbeat serverId resp =>
    .ok (cluster.withServer serverId ((cluster.servers serverId).handlePacket resp))
  | .requestMigrateFinish serverId version bucketNo =>
    (fun answered => { cluster with confServer := answered.1 }.send
      (.responseReturn serverId bucketNo answered.2)) <$>
      cluster.confServer.doFinishMigratePacket serverId version bucketNo
  | .responseReturn serverId bucketNo accepted =>
    if (cluster.servers serverId).migrateMgr.waiting = some bucketNo then
      (fun server =>
        (if accepted then cluster.noteDone serverId bucketNo else cluster).withServer serverId
          server) <$> (cluster.servers serverId).finishReturned bucketNo accepted
    else .ok cluster

/-- Events that name nothing that is there change nothing. -/
def step : Event → Except Fault (Cluster shape)
  | .rebuildSnapshot fresh up => cluster.confStep (.rebuildSnapshot fresh up)
  | .rebuildCommit => cluster.confStep .rebuildCommit
  | .checkMigrateComplete down => cluster.confStep (.checkMigrateComplete down)
  | .hardCheckMigrateComplete => cluster.confStep .hardCheckMigrateComplete
  | .incVersion incStep => cluster.confStep (.incVersion incStep)
  | .setStatus serverId status =>
    .ok { cluster with confServer := { cluster.confServer with
      dataServerInfo := Function.update cluster.confServer.dataServerInfo serverId status } }
  | .deliver place =>
    match cluster.packets[place]? with
    | some packet => { cluster with packets := cluster.packets.eraseIdx place }.receive packet
    | none => .ok cluster
  | .drop place => .ok { cluster with packets := cluster.packets.eraseIdx place }
  | .sendHeartbeat serverId =>
    .ok (cluster.send
      (.requestHeartbeat ((cluster.servers serverId).requestHeartbeat serverId)))
  | .updateServerTable serverId thread =>
    match (cluster.servers serverId).updaters[thread]? with
    | some update =>
      if (cluster.servers serverId).updating then .ok cluster
      else (fun server => cluster.withServer serverId
        { server with updaters := server.updaters.eraseIdx thread }) <$>
          (cluster.servers serverId).updateServerTable serverId update
    | none => .ok cluster
  | .startMigration serverId =>
    if (cluster.servers serverId).updating then
      .ok (cluster.withServer serverId (cluster.servers serverId).startMigration)
    else .ok cluster
  | .doRun serverId => .ok (cluster.withServer serverId (cluster.servers serverId).doRun)
  | .finishMigrateBucket serverId bucket =>
    match (cluster.servers serverId).finishMigrateBucket bucket with
    | some server => .ok ((cluster.withServer serverId server).send
        (.requestMigrateFinish serverId server.migrateMgr.version bucket))
    | none => .ok cluster
  | .restart serverId => .ok (cluster.withServer serverId .started)

end Cluster

end Tair
