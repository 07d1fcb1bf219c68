/-
The commands of the redis engine that a data server gives to it. All but four look at their key
through `expireIfNeeded`, which deletes a key whose time is over or that is older than the last
clearing.
-/

import Tair.Rdb.HashCommands
import Tair.Rdb.SetCommands
import Tair.Rdb.ZsetCommands

namespace Tair.Rdb

open Tair.Library

inductive Command (σ : Type) where
  | exists
  | type
  | set (nx : Bool) (value : Bytes) (expire : Option Int)
  | get
  | getset (value : Bytes)
  | incrby (initValue incr : Int)
  | push (growing : End) (maxCount : Int) (values : List Bytes)
  | pushx (growing : End) (values : List Bytes)
  | linsert (place : End) (refval value : Bytes)
  | llen
  | lindex (index : Int)
  | lset (index : Int) (value : Bytes)
  | pop (place : End) (count : Int)
  | lrange (first last : Int)
  | ltrim (first last : Int)
  | lrem (toremove : Int) (value : Bytes)
  | hset (field : FieldArgument) (value : Bytes)
  | hsetnx (field : FieldArgument) (value : Bytes)
  | hmset (pairs : List (FieldArgument × Bytes))
  | hincrby (field : FieldArgument) (incr : Int)
  | hdel (field : Bytes)
  | hget (field : FieldArgument)
  | hmget (fields : List FieldArgument)
  | hexists (field : FieldArgument)
  | filter (field : FieldArgument)
  | hlen
  | hgetall (withFields withValues : Bool)
  | sadd (member : Bytes)
  | srem (member : Bytes)
  | spop (choice : Nat)
  | scard
  | smembers
  | zadd (incr : Bool) (member : Bytes) (score : σ)
  | zrem (member : Bytes)
  | zremrangebyscore (low high : σ)
  | zremrangebyrank (first last : Int)
  | zrange (reverse withScores : Bool) (first last : Int)
  | zrangebyscore (reverse : Bool) (first last : σ) (limit : Int) (withScores : Bool)
  | zcount (first last : σ)
  | zcard
  | zscore (member : Bytes)
  | zrank (reverse : Bool) (member : Bytes)

inductive RawCommand where
  | del
  | expire (seconds : Int)
  | ttl
  | persist
deriving DecidableEq, Repr

variable {σ : Type}

/-! ### Commands for keys of any type -/

def existsCommand : Action σ
  | none => .ok (.refuse .okNotExist 0)
  | some _ => .ok (.read .nothing 0)

/-- `REDIS_STRING` and the other numbers of the types. -/
def Robj.typeNumber : Robj σ → Int
  | .string _ => 0
  | .list _ => 1
  | .set _ => 2
  | .zset _ => 3
  | .hash _ => 4

def typeCommand : Action σ
  | none => .ok (.refuse .okNotExist 0)
  | some entry => .ok (.read (.number entry.value.typeNumber) entry.version)

def ttlAnswer (now : Int) (expire : Option Int) : Int :=
  match expire with
  | none => 0
  | some expire => if expire = -1 ∨ expire - now < 0 then 0 else expire - now

/-- The time to expire that `expireXGenericCommand` sets. -/
def expireWhen (now seconds : Int) : ExpireChange :=
  if 0 < seconds then .set (if seconds ≤ now then now + seconds else seconds)
  else if seconds = 0 then .remove
  else .keep

/-- A command on what the dictionaries have for the key. A time without a key is against an
assertion. -/
def RawCommand.act (now : Int) (command : RawCommand) (found : Option (Entry σ))
    (expire : Option Int) : Except Fault (Outcome σ) :=
  match command, found with
  | .del, none => .ok (.refuse .okNotExist 0)
  | .del, some _ => .ok { change := .delete, code := .ok, answer := .number 1, version := 0 }
  | .expire _, none => .ok (.refuse .okNotExist 0)
  | .expire seconds, some _ =>
    .ok
      { change := .expire (expireWhen now seconds)
        code := .ok
        answer := .nothing
        version := 0 }
  | .ttl, none =>
    if expire.isSome then .error .assertFailed
    else .ok { change := .keep, code := .okNotExist, answer := .number 0, version := 0 }
  | .ttl, some _ => .ok (.read (.number (ttlAnswer now expire)) 0)
  | .persist, none => .ok (.refuse .okNotExist 0)
  | .persist, some _ =>
    .ok { change := .expire .remove, code := .ok, answer := .nothing, version := 0 }

/-! ### All commands -/

structure Server (σ : Type) where
  settings : Settings
  scores : ScoreOps σ

def Command.action [LinearOrder σ] (server : Server σ) (client : Client) :
    Command σ → Action σ
  | .exists => existsCommand
  | .type => typeCommand
  | .set nx value expire => setGenericCommand client nx value expire
  | .get => getCommand
  | .getset value => getsetCommand client value
  | .incrby initValue incr => incrDecrCommand client initValue incr
  | .push growing maxCount values =>
    pushAction server.settings.toLimits growing client maxCount values
  | .pushx growing values =>
    pushxnGenericCommand server.settings.toLimits growing client values
  | .linsert place refval value =>
    linsertCommand server.settings.toLimits place client refval value
  | .llen => llenCommand
  | .lindex index => lindexCommand index
  | .lset index value => lsetCommand server.settings.toLimits client index value
  | .pop place count => popnGenericCommand place client count
  | .lrange first last => lrangeCommand first last
  | .ltrim first last => ltrimCommand client first last
  | .lrem toremove value => lremCommand client toremove value
  | .hset field value => hsetCommand server.settings client field value
  | .hsetnx field value => hsetnxCommand server.settings client field value
  | .hmset pairs => hmsetCommand server.settings client pairs
  | .hincrby field incr => hincrbyCommand server.settings client field incr
  | .hdel field => hdelCommand client field
  | .hget field => hgetCommand field
  | .hmget fields => hmgetCommand fields
  | .hexists field => hexistsCommand field
  | .filter field => filterCommand field
  | .hlen => hlenCommand
  | .hgetall withFields withValues => genericHgetallCommand withFields withValues
  | .sadd member => saddCommand server.settings client member
  | .srem member => sremCommand client member
  | .spop choice => spopCommand client choice
  | .scard => scardCommand
  | .smembers => smembersCommand
  | .zadd incr member score =>
    zaddGenericCommand server.settings server.scores client incr member score
  | .zrem member => zremCommand client member
  | .zremrangebyscore low high => zremrangebyscoreCommand server.scores client low high
  | .zremrangebyrank first last => zremrangebyrankCommand client first last
  | .zrange reverse withScores first last => zrangeGenericCommand reverse withScores first last
  | .zrangebyscore reverse first last limit withScores =>
    zrangebyscoreCommand server.scores reverse first last limit withScores
  | .zcount first last => zcountCommand server.scores first last
  | .zcard => zcardCommand
  | .zscore member => zscoreCommand member
  | .zrank reverse member => zrankGenericCommand reverse member

namespace RedisDb

def run (db : RedisDb σ) (now : Int) (key : Bytes) (action : Action σ) :
    Except Fault (RedisDb σ × Outcome σ) := do
  let looked ← db.lookupKeyWriteWithVersion now key
  let outcome ← action looked.2
  pure (looked.1.change key outcome.change, outcome)

def runRaw (db : RedisDb σ) (now : Int) (key : Bytes) (command : RawCommand) :
    Except Fault (RedisDb σ × Outcome σ) := do
  let outcome ← command.act now (db.dict.lookup key) (db.expires.lookup key)
  pure (db.change key outcome.change, outcome)

def lazyflushdb (db : RedisDb σ) : RedisDb σ :=
  { db with logiclock := db.logiclock + 1, needRemoveKey := db.dict.keys.length }

end RedisDb

/-- Without a list there is one after the loop only if it has pushed. -/
theorem pushList_none {limits : Limits} {grow : End} {maxCount : Int} {values : List Bytes}
    {after : Option RedisList}
    (ran : pushList limits grow maxCount values none = .ok (after, 2)) : after = none := by
  obtain ⟨argc, _, ran⟩ := ok_of_bind ran
  obtain ⟨listLength, _, ran⟩ := ok_of_bind ran
  obtain ⟨plan, _, ran⟩ := ok_of_bind ran
  obtain ⟨same, limit⟩ := Prod.mk.inj (Except.ok.inj ran)
  have none : (plan.argcLimit - 2).toNat = 0 := by omega
  rw [none, List.take_zero, List.drop_nil] at same
  exact same.symm

end Tair.Rdb
