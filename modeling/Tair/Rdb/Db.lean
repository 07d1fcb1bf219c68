/-
The key space of one area. A key carries a version and the logical clock of its area at the time
it was added; keys older than the last clearing are deleted when somebody looks at them.
-/

import Tair.Rdb.Object
import Tair.Library.Machine

namespace Tair.Rdb

open Tair.Library

inductive RedisCode where
  | ok
  | okNotExist
  | okButAlreadyExist
  | okButCzero
  | okRangeHaveNone
  | errVersionError
  | errWrongTypeError
  | errDataLenLimited
  | errOutOfRange
  | errIsNotInteger
  | errIsNotNumber
  | errCnegoError
  | errWrongNumberArguments
deriving DecidableEq, Repr

structure Entry (σ : Type) where
  value : Robj σ
  version : UInt16
  logiclock : UInt32
deriving DecidableEq, Repr

structure RedisDb (σ : Type) where
  dict : AList (fun _ : Bytes => Entry σ)
  expires : AList (fun _ : Bytes => Int)
  logiclock : UInt32
  needRemoveKey : Int
deriving DecidableEq

structure Client where
  version : UInt16
  versionCare : Bool
  expiretime : Int
deriving DecidableEq, Repr

namespace RedisDb

variable {σ : Type}

variable (db : RedisDb σ)

def dbDelete (key : Bytes) : RedisDb σ :=
  { db with
    dict := db.dict.erase key
    expires := db.expires.erase key }

def expireIfNeeded (now : Int) (key : Bytes) : Except Fault (RedisDb σ) :=
  match db.dict.lookup key with
  | none => .ok db
  | some entry =>
    if entry.logiclock = 0 then .error .assertFailed
    else if entry.logiclock < db.logiclock then
      .ok { db.dbDelete key with needRemoveKey := db.needRemoveKey - 1 }
    else
      let expire := (db.expires.lookup key).getD (-1)
      if expire < 0 ∨ now ≤ expire then .ok db else .ok (db.dbDelete key)

def lookupKeyWriteWithVersion (now : Int) (key : Bytes) :
    Except Fault (RedisDb σ × Option (Entry σ)) := do
  let db ← db.expireIfNeeded now key
  pure (db, db.dict.lookup key)

/-- A key that is there already stays as it is. -/
def dbAdd (key : Bytes) (version : UInt16) (value : Robj σ) : RedisDb σ :=
  if (db.dict.lookup key).isSome then db
  else { db with dict := db.dict.insert key { value, version, logiclock := db.logiclock } }

def mutate (key : Bytes) (value : Robj σ) : RedisDb σ :=
  match db.dict.lookup key with
  | none => db
  | some entry => { db with dict := db.dict.insert key { entry with value } }

def dbUpdateKey (key : Bytes) (version : UInt16) : RedisDb σ :=
  match db.dict.lookup key with
  | none => db
  | some entry => { db with dict := db.dict.insert key { entry with version } }

def setXExpire (key : Bytes) (expire : Int) : RedisDb σ :=
  if (db.dict.lookup key).isSome then { db with expires := db.expires.insert key expire }
  else db

def removeXExpire (key : Bytes) : RedisDb σ :=
  if (db.dict.lookup key).isSome then { db with expires := db.expires.erase key } else db

def expireOrNot (key : Bytes) (expiretime : Int) : RedisDb σ :=
  if 0 < expiretime then db.setXExpire key expiretime
  else if expiretime = 0 then db.removeXExpire key
  else db

end RedisDb

/-- The version that a key has after a write, unless the request asked for another one. -/
def Client.nextVersion (client : Client) (found : Option UInt16) : Option UInt16 :=
  match found with
  | none => some (if client.versionCare then 1 else 0)
  | some stored =>
    if client.versionCare ∧ client.version ≠ 0 ∧ client.version ≠ stored then none
    else some (if client.versionCare then stored + 1 else stored)

/-! ### What is found afterwards -/

namespace RedisDb

variable {σ : Type} (db : RedisDb σ) (key : Bytes)

def valueOf : Option (Robj σ) := (db.dict.lookup key).map Entry.value

@[simp]
theorem valueOf_dbUpdateKey (version : UInt16) :
    (db.dbUpdateKey key version).valueOf key = db.valueOf key := by
  unfold dbUpdateKey valueOf
  cases found : db.dict.lookup key with
  | none => exact congrArg _ found
  | some entry =>
    change ((db.dict.insert key { entry with version }).lookup key).map Entry.value = _
    rw [AList.lookup_insert]
    rfl

@[simp]
theorem dict_expireOrNot (expiretime : Int) : (db.expireOrNot key expiretime).dict = db.dict := by
  unfold expireOrNot setXExpire removeXExpire
  split_ifs <;> rfl

@[simp]
theorem valueOf_expireOrNot (expiretime : Int) :
    (db.expireOrNot key expiretime).valueOf key = db.valueOf key := by
  unfold valueOf
  rw [dict_expireOrNot]

theorem isSome_dbAdd (version : UInt16) (value : Robj σ) :
    ((db.dbAdd key version value).dict.lookup key).isSome := by
  unfold dbAdd
  by_cases here : (db.dict.lookup key).isSome
  · rw [if_pos here]
    exact here
  · rw [if_neg here]
    exact congrArg Option.isSome (AList.lookup_insert _)

theorem valueOf_mutate (value : Robj σ) (here : (db.dict.lookup key).isSome) :
    (db.mutate key value).valueOf key = some value := by
  obtain ⟨entry, found⟩ := Option.isSome_iff_exists.mp here
  unfold mutate valueOf
  rw [found]
  exact congrArg _ (AList.lookup_insert _)

end RedisDb

end Tair.Rdb
