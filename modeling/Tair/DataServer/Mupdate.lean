/-
The packets of a migration. The records have keys with their area merged in, which the receiver
takes apart. The sender repeats a packet until every destination has answered with success.
-/

import Tair.DataServer.WritePath

namespace Tair.DataServer

open Tair.Common (DataEntry ReturnCode ItemMeta tairMaxKeySize tairMaxDataSize)

/-- The area of the first two bytes of a key. The bytes are signed ones. -/
def signedArea (low high : UInt8) : Int :=
  ((high.toInt8.toInt32 <<< 8) ||| low.toInt8.toInt32).toInt

/-- What `decode_area` returns. -/
def decodedArea (key : DataEntry) : Except Common.Fault Int :=
  if key.hasMerged then
    match key.data with
    | low :: high :: _ :: _ => .ok (signedArea low high)
    | _ => .error .assertFailed
  else .ok key.area

namespace StorageManager

variable {τ σ : Type} (engine : StorageManager τ σ) (clock : τ)

/-- `tair_manager::direct_put`. The engines do not go by the area of the entry, which has no
negative values here. -/
def directPut (store : σ) (key value : DataEntry) : Except Common.Fault (σ × ReturnCode) :=
  if ¬ keySizeFits key then .ok (store, .itemsizeError)
  else if ¬ dataSizeFits value then .ok (store, .itemsizeError)
  else do
    let area ← decodedArea key
    engine.put clock store area { key with area := area.toNat } value false 0

def directRemove (store : σ) (key : DataEntry) : Except Common.Fault (σ × ReturnCode) :=
  if ¬ keySizeFits key then .ok (store, .itemsizeError)
  else do
    let area ← decodedArea key
    let (after, rc) ← engine.remove clock store area key false
    .ok (after, if rc = .dataNotExist then .success else rc)

end StorageManager

/-- A record of any other type than a put has no value. -/
inductive OperationRecord where
  | put (key value : DataEntry)
  | remove (key : DataEntry)
  | other (operationType : UInt8) (key : DataEntry)
deriving DecidableEq, Repr

structure RequestMupdate where
  serverFlag : ServerFlag
  keyAndValues : List OperationRecord

namespace StorageManager

variable {τ σ : Type} (engine : StorageManager τ σ) (clock : τ)

def applyRecord (store : σ) : OperationRecord → Except Common.Fault (σ × ReturnCode)
  | .put key value => engine.directPut clock store key value
  | .remove key => engine.directRemove clock store key
  | .other _ _ => .ok (store, .invalidArgument)

/-- The loop over the records, which ends with the first one that fails. -/
def applyRecords : List OperationRecord → σ → Except Common.Fault (σ × ReturnCode)
  | [], store => .ok (store, .success)
  | record :: rest, store => do
    let (after, rc) ← engine.applyRecord clock store record
    if rc = .success then applyRecords rest after else .ok (after, rc)

end StorageManager

def WriteServer.processMupdate {τ σ : Type} (engine : StorageManager τ σ) (clock : τ)
    (server : WriteServer σ) (req : RequestMupdate) : Except Common.Fault (σ × ReturnCode) :=
  if server.manager.isWorking = false then .ok (server.store, .serverCanNotWork)
  else if req.serverFlag ≠ .migrate then .ok (server.store, .invalidArgument)
  else engine.applyRecords clock req.keyAndValues server.store

/-! ### The sender -/

/-- One round of `send_packet`: the destinations that have not answered with success. -/
def sendRound (answers : UInt64 → Option ReturnCode) (destServers : List UInt64) : List UInt64 :=
  destServers.filter (fun server => answers server ≠ some .success)

/-- The rounds, with what comes back in each of them and whether the migration is stopped in
it. There is no result before the loop ends. -/
def sendPacket (answers : Nat → UInt64 → Option ReturnCode) (stopped : Nat → Bool) :
    Nat → Nat → List UInt64 → Option Bool
  | 0, _, _ => none
  | rounds + 1, round, destServers =>
    let left := sendRound (answers round) destServers
    if stopped round then some false
    else if left = [] then some true
    else sendPacket answers stopped rounds (round + 1) left

end Tair.DataServer
