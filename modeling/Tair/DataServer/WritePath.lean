/-
How a write reaches the engine of a data server. The handlers ask whether the server works and, as
far as a request says which bucket it is for, whether the bucket has gone. Records of a migration
bring merged keys and go the direct way.
-/

import Tair.Common.DataEntry
import Tair.Common.Fault
import Tair.Common.ReturnCode
import Tair.DataServer.TairManager

namespace Tair.DataServer

open Tair.Common (DataEntry ReturnCode tairMaxKeySize tairMaxDataSize)

/-- An engine as the server calls it, at one reading of the clock. The number before the
key is meant to be that of the bucket. -/
structure StorageManager (τ σ : Type) where
  put : τ → σ → Int → DataEntry → DataEntry → Bool → Int → Except Common.Fault (σ × ReturnCode)
  remove : τ → σ → Int → DataEntry → Bool → Except Common.Fault (σ × ReturnCode)

inductive Crash where
  | tables (fault : ConfigServer.Fault)
  | storage (fault : Common.Fault)
deriving DecidableEq, Repr

def ServerFlag.code : ServerFlag → Nat
  | .client => 0
  | .duplicate => 1
  | .migrate => 2
  | .proxy => 3

/-- The part of `get_op_flag` that the manager asks for. -/
def versionCare (serverFlag : Nat) : Bool :=
  serverFlag = ServerFlag.client.code ∨ serverFlag = ServerFlag.proxy.code

def keySizeFits (key : DataEntry) : Prop :=
  ¬ (key.data.length ≥ tairMaxKeySize ∨ key.data.length < 1)

def dataSizeFits (value : DataEntry) : Prop :=
  ¬ (value.data.length ≥ tairMaxDataSize ∨ value.data.length < 1)

instance (key : DataEntry) : Decidable (keySizeFits key) := inferInstanceAs (Decidable (¬ _))

instance (value : DataEntry) : Decidable (dataSizeFits value) := inferInstanceAs (Decidable (¬ _))

namespace StorageManager

variable {τ σ : Type} (engine : StorageManager τ σ) (clock : τ) (store : σ)

/-- `tair_manager::put`. The area goes to the engine where a bucket is meant. -/
def managerPut (area : UInt16) (key value : DataEntry) (expireTime : Int) :
    Except Common.Fault (σ × ReturnCode) :=
  if ¬ keySizeFits key then .ok (store, .itemsizeError)
  else if ¬ dataSizeFits value then .ok (store, .itemsizeError)
  else
    engine.put clock store area.toNat (key.mergeArea area.toNat) value (versionCare key.serverFlag)
      expireTime

def managerRemove (area : UInt16) (key : DataEntry) : Except Common.Fault (σ × ReturnCode) :=
  if ¬ keySizeFits key then .ok (store, .itemsizeError)
  else
    engine.remove clock store area.toNat (key.mergeArea area.toNat) (versionCare key.serverFlag)

end StorageManager

/-! ### Requests -/

/-- `hashCode` is -1 when the client sends none. -/
structure PutRequest where
  serverFlag : ServerFlag
  area : UInt16
  version : UInt16
  expired : Int
  key : DataEntry
  data : DataEntry
  hashCode : Int

/-- One key, or a list of them. -/
structure RemoveRequest where
  serverFlag : ServerFlag
  area : UInt16
  key : DataEntry
  others : List DataEntry

inductive ClientWrite where
  | put (req : PutRequest)
  | remove (req : RemoveRequest)

namespace ClientWrite

def serverFlag : ClientWrite → ServerFlag
  | .put req => req.serverFlag
  | .remove req => req.serverFlag

def keys : ClientWrite → List DataEntry
  | .put req => [req.key]
  | .remove req => req.key :: req.others

end ClientWrite

/-- The key as `put` gets it. -/
def PutRequest.entry (req : PutRequest) : DataEntry :=
  { req.key with
    serverFlag := req.serverFlag.code
    dataMeta := { req.key.dataMeta with version := req.version } }

/-- A data server with its engine. `currentLockedBucket` is the one whose migration is about
to end. -/
structure WriteServer (σ : Type) where
  manager : TairManager
  currentLockedBucket : Option Nat
  store : σ

/-- The other server that a put is for. The hash code is what the client says it is. -/
def TairManager.proxyTarget (manager : TairManager) (localIp : UInt64) (hashCode : Int) :
    Except ConfigServer.Fault (Option UInt64) :=
  if hashCode ≠ -1 then manager.shouldProxy localIp (UInt32.ofNat (hashCode % 2 ^ 32).toNat)
  else .ok none

namespace WriteServer

variable {τ σ : Type} (engine : StorageManager τ σ)

def processPut (clock : τ) (localIp : UInt64)
    (server : WriteServer σ) (req : PutRequest) : Except Crash (σ × ReturnCode) :=
  if server.manager.isWorking = false then .ok (server.store, .serverCanNotWork)
  else
    match server.manager.proxyTarget localIp req.hashCode with
    | .error fault => .error (.tables fault)
    | .ok (some _) => .ok (server.store, .shouldProxy)
    | .ok none =>
      (engine.managerPut clock server.store req.area req.entry req.data req.expired).mapError
        .storage

/-- The handler of a remove, with the answer to the last key. Nobody asks where the buckets
of the keys are. -/
def processRemove (clock : τ) (server : WriteServer σ)
    (req : RemoveRequest) : Except Crash (σ × ReturnCode) :=
  if server.manager.isWorking = false then .ok (server.store, .serverCanNotWork)
  else
    ((req.key :: req.others).foldlM
      (fun done key => engine.managerRemove clock done.1 req.area key)
      (server.store, ReturnCode.success)).mapError .storage

def process (clock : τ) (localIp : UInt64) (server : WriteServer σ) :
    ClientWrite → Except Crash (σ × ReturnCode)
  | .put req => server.processPut engine clock localIp req
  | .remove req => server.processRemove engine clock req

end WriteServer

end Tair.DataServer
