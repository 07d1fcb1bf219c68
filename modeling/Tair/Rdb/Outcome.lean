/-
What a command does. A command looks up its key, and from what it finds there it makes an
answer and a change of that key: the key is left, deleted, or stored with another object,
version or time to expire.
-/

import Tair.Rdb.List

namespace Tair.Rdb

open Tair.Library

/-! ### Answers -/

/-- A value of an answer, `value_item_node`. -/
inductive ValueNode (σ : Type) where
  | robj (object : StringObject)
  | buffer (bytes : Bytes)
  | longLong (value : Int)
  | double (value : σ)
  | null
deriving DecidableEq, Repr

/-- What a client finds in `retvalue` or `return_value` when the code says so. -/
inductive Answer (σ : Type) where
  | nothing
  | number (value : Int)
  | score (value : σ)
  | pushed (value : PushReturn)
  | values (nodes : List (ValueNode σ))
deriving DecidableEq, Repr

/-- The nodes that readers make of strings: an integer goes out as a number. -/
def StringObject.node {σ : Type} : StringObject → ValueNode σ
  | .raw bytes => .robj (.raw bytes)
  | .int value => .longLong value

/-- The bytes that the session copies out of a node. It takes every object for a string, and it
does not fill the item of a score. -/
def ValueNode.read {σ : Type} : ValueNode σ → Except Fault Bytes
  | .robj (.raw bytes) => .ok bytes
  | .robj (.int _) => .error .wildPointer
  | .buffer bytes => .ok bytes
  | .longLong value => .ok (ll2string value)
  | .double _ => .error .wildPointer
  | .null => .ok []

/-! ### Changes -/

inductive ExpireChange where
  | keep
  | remove
  | set (when : Int)
deriving DecidableEq, Repr

def Client.expireOrNot (client : Client) : ExpireChange :=
  if 0 < client.expiretime then .set client.expiretime
  else if client.expiretime = 0 then .remove
  else .keep

inductive Change (σ : Type) where
  | keep
  | delete
  | store (value : Robj σ) (version : UInt16) (expire : ExpireChange)
  | expire (change : ExpireChange)
deriving DecidableEq, Repr

namespace RedisDb

variable {σ : Type}

def changeExpire (db : RedisDb σ) (key : Bytes) : ExpireChange → RedisDb σ
  | .keep => db
  | .remove => db.removeXExpire key
  | .set when => db.setXExpire key when

def change (db : RedisDb σ) (key : Bytes) : Change σ → RedisDb σ
  | .keep => db
  | .delete => db.dbDelete key
  | .store value version expire =>
    (((db.dbAdd key version value).mutate key value).dbUpdateKey key version).changeExpire
      key expire
  | .expire change => db.changeExpire key change

end RedisDb

/-! ### Outcomes -/

/-- The `version` is the one that the client finds beside the answer. -/
structure Outcome (σ : Type) where
  change : Change σ
  code : RedisCode
  answer : Answer σ
  version : UInt16
deriving DecidableEq, Repr

abbrev Action (σ : Type) := Option (Entry σ) → Except Fault (Outcome σ)

section Actions

variable {σ τ : Type}

/-- Whatever an earlier command has left in the client stays there. -/
def Outcome.refuse (code : RedisCode) (version : UInt16) : Outcome σ :=
  { change := .keep, code, answer := .nothing, version }

def Outcome.read (answer : Answer σ) (version : UInt16) : Outcome σ :=
  { change := .keep, code := .ok, answer, version }

namespace Robj

def asString : Robj σ → Option StringObject
  | .string value => some value
  | _ => none

def asList : Robj σ → Option RedisList
  | .list value => some value
  | _ => none

def asSet : Robj σ → Option RedisSet
  | .set value => some value
  | _ => none

def asZset : Robj σ → Option (List (StringObject × σ))
  | .zset nodes => some nodes
  | _ => none

def asHash : Robj σ → Option RedisHash
  | .hash value => some value
  | _ => none

end Robj

def typed (project : Robj σ → Option τ) (entry : Entry σ)
    (act : τ → Except Fault (Outcome σ)) : Except Fault (Outcome σ) :=
  match project entry.value with
  | none => .ok (.refuse .errWrongTypeError entry.version)
  | some value => act value

def onExisting (project : Robj σ → Option τ)
    (act : Entry σ → τ → Except Fault (Outcome σ)) : Action σ
  | none => .ok (.refuse .okNotExist 0)
  | some entry => typed project entry (act entry)

def versioned (client : Client) (entry : Entry σ)
    (act : UInt16 → Except Fault (Outcome σ)) : Except Fault (Outcome σ) :=
  match client.nextVersion (some entry.version) with
  | none => .ok (.refuse .errVersionError entry.version)
  | some version => act version

theorem versioned_refused {client : Client} {entry : Entry σ}
    (refused : client.nextVersion (some entry.version) = none)
    (act : UInt16 → Except Fault (Outcome σ)) :
    versioned client entry act = .ok (.refuse .errVersionError entry.version) := by
  unfold versioned
  rw [refused]

theorem versioned_accepted {client : Client} {entry : Entry σ} {version : UInt16}
    (accepted : client.nextVersion (some entry.version) = some version)
    (act : UInt16 → Except Fault (Outcome σ)) : versioned client entry act = act version := by
  unfold versioned
  rw [accepted]

def Client.firstVersion (client : Client) : UInt16 := if client.versionCare then 1 else 0

/-- The object stays, or is gone when nothing is left of it. -/
def storeUnless (empty : Bool) (value : Robj σ) (version : UInt16) (expire : ExpireChange) :
    Change σ :=
  if empty then .delete else .store value version expire

end Actions

end Tair.Rdb
