/-
What the master config server answers its data servers. A heartbeat with another version gets the
tables; one with the version of the group may report migrated buckets.
-/

import Tair.ConfigServer.RebuildWindow

namespace Tair.ConfigServer

open Tair.Library

variable {shape : Shape}

inductive ServerStatus where
  | alive
  | down
  | forceDown
deriving DecidableEq, Repr

def groupDefaultAcceptStrategy : Int := 0

def groupAutoAcceptStrategy : Int := 1

def serverUpIncStep : UInt32 := 100

structure RequestHeartbeat where
  serverId : UInt64
  configVersion : UInt32
  pullMigratedInfo : Bool
  vecBucketNo : List UInt32

/-- `serverList` is the table as it arrives. -/
structure ResponseHeartbeat where
  serverVersion : UInt32
  bucketCount : Nat
  copyCount : Nat
  serverList : Option (Array UInt64)
  migratedInfo : List UInt64

def ResponseHeartbeat.construct : ResponseHeartbeat := ⟨0, 0, 0, none, []⟩

def ResponseHeartbeat.solitary : ResponseHeartbeat := { construct with serverVersion := 1 }

/-- `data_server_info_map`, for the servers of this group. -/
structure ServerConf (shape : Shape) where
  conf : ConfState shape
  acceptStrategy : Int
  dataServerInfo : UInt64 → Option ServerStatus

/-- The table for data servers: the published one and the one of the migration. -/
def joined (s d : FlatTable shape) : Array UInt64 := (s.toList ++ d.toList).toArray

/-- The buckets the server has in the published table, each with its row in the table
of the migration. -/
def GroupInfo.migratedInfo (group : GroupInfo shape) (serverId : UInt64) : List UInt64 :=
  shape.buckets.flatMap (fun idx =>
    if group.hashTable.get shape.master idx = serverId then
      UInt64.ofNat idx.val :: shape.lines.map (fun line => group.mHashTable.get line idx)
    else [])

namespace ServerConf

variable (server : ServerConf shape)

/-- With another version the server needs the tables; with the same one its buckets
are looked at. -/
def compareVersions (req : RequestHeartbeat) : Except Fault (GroupInfo shape × ResponseHeartbeat) :=
  if req.configVersion ≠ server.conf.group.serverVersion then
    .ok (server.conf.group, { ResponseHeartbeat.construct with
      serverVersion := server.conf.group.serverVersion
      bucketCount := shape.bucketCount
      copyCount := shape.copyCount
      serverList := some (joined server.conf.group.hashTable server.conf.group.dHashTable) })
  else
    (fun group => (group, .construct)) <$>
      server.conf.group.doProxyReport req.serverId req.vecBucketNo

def answer (req : RequestHeartbeat) : Except Fault (ServerConf shape × ResponseHeartbeat) :=
  if server.conf.group.groupCanWork = false then .ok (server, .solitary)
  else
    (fun compared => ({ server with conf := { server.conf with group := compared.1 } },
      { compared.2 with migratedInfo :=
        if req.pullMigratedInfo then compared.1.migratedInfo req.serverId else [] })) <$>
      server.compareVersions req

/-- A server that was down is not taken back by itself, unless the group says so. -/
def doHeartbeatPacket (req : RequestHeartbeat) :
    Except Fault (ServerConf shape × ResponseHeartbeat) :=
  match server.dataServerInfo req.serverId with
  | none => .ok (server, .construct)
  | some .alive => server.answer req
  | some .forceDown => .ok (server, .solitary)
  | some .down =>
    if server.acceptStrategy = groupDefaultAcceptStrategy then
      .ok ({ server with conf := { server.conf with
        group := server.conf.group.incVersion serverUpIncStep } }, .solitary)
    else if server.acceptStrategy = groupAutoAcceptStrategy then
      { server with dataServerInfo :=
        Function.update server.dataServerInfo req.serverId (some .alive) }.answer req
    else .ok (server, .construct)

def doFinishMigratePacket (serverId : UInt64) (version : UInt32) (bucketNo : Int) :
    Except Fault (ServerConf shape × Bool) :=
  match server.dataServerInfo serverId with
  | none => .ok (server, true)
  | some _ =>
    (fun finished => ({ server with conf := { server.conf with group := finished.2 } },
      finished.1)) <$> server.conf.group.doFinishMigrate serverId version bucketNo

end ServerConf

end Tair.ConfigServer
