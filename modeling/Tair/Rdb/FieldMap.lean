/-
What a hash is for: a finite map from fields to values under a key, with a version and a time
to expire. The requests are those of a client; fields come without time stamps, as they do where
no filter is set.
-/

import Tair.Rdb.Slots

namespace Tair.Rdb

open Tair.Library

abbrev FieldMap := Finmap (fun _ : Bytes => Bytes)

inductive HashRequest where
  | hset (field value : Bytes)
  | hsetnx (field value : Bytes)
  | hmset (pairs : List (Bytes × Bytes))
  | hincrby (field : Bytes) (incr : Int)
  | hdel (field : Bytes)
  | hget (field : Bytes)
  | hexists (field : Bytes)
  | hlen
deriving DecidableEq, Repr

inductive MapAnswer where
  | nothing
  | number (value : Int)
  | value (bytes : Bytes)
deriving DecidableEq, Repr

structure MapReply where
  code : RedisCode
  answer : MapAnswer
deriving DecidableEq, Repr

structure MapSlot where
  map : FieldMap
  version : UInt16
  expire : Option Int

def MapSlot.past (now : Int) (slot : MapSlot) : Bool :=
  slot.expire.any fun expire => 0 ≤ expire ∧ expire < now

def mapOf (slot : Option MapSlot) : FieldMap := slot.elim ∅ MapSlot.map

def storeMap (client : Client) (slot : Option MapSlot) (map : FieldMap) (version : UInt16) :
    Option MapSlot :=
  some { map, version, expire := client.expireOrNot.apply (slot.bind MapSlot.expire) }

/-- A write goes on with the next version, unless the request asked for another one. -/
def writeMap (client : Client) (slot : Option MapSlot)
    (act : UInt16 → Option MapSlot × MapReply) : Option MapSlot × MapReply :=
  match client.nextVersion (slot.map MapSlot.version) with
  | none => (slot, { code := .errVersionError, answer := .nothing })
  | some version => act version

variable (settings : Settings) (client : Client)

def roomFor (map : FieldMap) : Bool :=
  fitsLimit (map.keys.card + 1) settings.hashMaxSize

def insertAll (map : FieldMap) (pairs : List (Bytes × Bytes)) : FieldMap :=
  pairs.foldl (fun map pair => map.insert pair.1 pair.2) map

/-- A new field needs room. -/
def setField (slot : Option MapSlot) (field value : Bytes) (version : UInt16) :
    Option MapSlot × MapReply :=
  let map := mapOf slot
  if (map.lookup field).isNone ∧ roomFor settings map = false then
    (slot, { code := .errDataLenLimited, answer := .nothing })
  else
    (storeMap client slot (map.insert field value) version,
      { code := if (map.lookup field).isSome then .okButAlreadyExist else .ok
        answer := .nothing })

/-- Without room the pairs are set up to the first new field. -/
def setFields (slot : Option MapSlot) (pairs : List (Bytes × Bytes))
    (version : UInt16) : Option MapSlot × MapReply :=
  let map := mapOf slot
  if roomFor settings map then
    (storeMap client slot (insertAll map pairs) version,
      { code := .ok, answer := .number pairs.length })
  else
    let lead := pairs.takeWhile fun pair => (map.lookup pair.1).isSome
    (if lead = [] then slot else storeMap client slot (insertAll map lead) version,
      { code := if lead.length < pairs.length then .errDataLenLimited else .ok
        answer := .number lead.length })

/-- The sum is that of two `int32_t`. -/
def incrementField (slot : Option MapSlot) (field : Bytes) (incr : Int)
    (version : UInt16) : Option MapSlot × MapReply :=
  let map := mapOf slot
  let store (sum : Int) :=
    (storeMap client slot (map.insert field (ll2string sum)) version,
      { code := .ok, answer := .number sum : MapReply })
  match map.lookup field with
  | none =>
    if roomFor settings map then store (addInt32 0 incr)
    else (slot, { code := .errDataLenLimited, answer := .nothing })
  | some value =>
    match strtoll value with
    | none => (slot, { code := .errIsNotInteger, answer := .nothing })
    | some number => store (addInt32 number incr)

/-- A map that has lost its last field goes with its key. -/
def deleteField (slot : MapSlot) (field : Bytes) (version : UInt16) : Option MapSlot × MapReply :=
  if (slot.map.lookup field).isSome then
    let map := slot.map.erase field
    (if map.keys.card = 0 then none else storeMap client (some slot) map version,
      { code := .ok, answer := .nothing })
  else (some slot, { code := .okNotExist, answer := .nothing })

namespace HashRequest

def step (settings : Settings) (client : Client) (slot : Option MapSlot) :
    HashRequest → Option MapSlot × MapReply
  | .hset field value => writeMap client slot (setField settings client slot field value)
  | .hsetnx field value =>
    writeMap client slot fun version =>
      if ((mapOf slot).lookup field).isSome then
        (slot, { code := .okButAlreadyExist, answer := .nothing })
      else
        (storeMap client slot ((mapOf slot).insert field value) version,
          { code := .ok, answer := .nothing })
  | .hmset pairs => writeMap client slot (setFields settings client slot pairs)
  | .hincrby field incr =>
    writeMap client slot (incrementField settings client slot field incr)
  | .hdel field =>
    match slot with
    | none => (none, { code := .okNotExist, answer := .nothing })
    | some stored => writeMap client slot (deleteField client stored field)
  | .hget field =>
    (slot, ((mapOf slot).lookup field).elim { code := .okNotExist, answer := .nothing }
      fun value => { code := .ok, answer := .value value })
  | .hexists field =>
    (slot,
      { code := if ((mapOf slot).lookup field).isSome then .ok else .okNotExist
        answer := .nothing })
  | .hlen =>
    (slot, slot.elim { code := .okNotExist, answer := .nothing } fun stored =>
      { code := .ok, answer := .number stored.map.keys.card })

def plain (field : Bytes) : FieldArgument := { bytes := field, timestamp := 0 }

def plainPairs (pairs : List (Bytes × Bytes)) : List (FieldArgument × Bytes) :=
  pairs.map fun pair => (plain pair.1, pair.2)

def command {σ : Type} : HashRequest → Command σ
  | .hset field value => .hset (plain field) value
  | .hsetnx field value => .hsetnx (plain field) value
  | .hmset pairs => .hmset (plainPairs pairs)
  | .hincrby field incr => .hincrby (plain field) incr
  | .hdel field => .hdel field
  | .hget field => .hget (plain field)
  | .hexists field => .hexists (plain field)
  | .hlen => .hlen

end HashRequest

/-! ### Sequences of requests -/

structure TimedRequest where
  now : Int
  client : Client
  request : HashRequest

def mapReplies (settings : Settings) : Option MapSlot → List TimedRequest → List MapReply
  | _, [] => []
  | slot, timed :: later =>
    let next := timed.request.step settings timed.client
      (slot.filter fun slot => !slot.past timed.now)
    next.2 :: mapReplies settings next.1 later

def Answer.read {σ : Type} : Answer σ → Except Fault MapAnswer
  | .number value => .ok (.number value)
  | .values (node :: _) => node.read.map MapAnswer.value
  | _ => .ok .nothing

def Outcome.mapReply {σ : Type} (outcome : Outcome σ) : Except Fault MapReply :=
  outcome.answer.read.map fun answer => { code := outcome.code, answer }

def hashReplies {σ : Type} [LinearOrder σ] (server : Server σ) (key : Bytes) :
    RedisDb σ → List TimedRequest → Except Fault (List MapReply)
  | _, [] => .ok []
  | db, timed :: later => do
    let ran ← db.run timed.now key (timed.request.command.action server timed.client)
    let reply ← ran.2.mapReply
    let rest ← hashReplies server key ran.1 later
    pure (reply :: rest)

end Tair.Rdb
