/-
The commands on sets. A set of integers is kept as an array of them; a set with another member
or with too many is a table of strings, in which integers are strings of the integer kind.
-/

import Tair.Library.Keyed
import Tair.Rdb.Outcome

namespace Tair.Rdb

open Tair.Library

variable {σ : Type}

namespace RedisSet

/-- `setTypeCreate`. -/
def create (value : StringObject) : RedisSet :=
  if value.asLong.isSome then .intset [] else .table []

/-- `setTypeSize`. -/
def size : RedisSet → Nat
  | .intset members => members.length
  | .table members => members.length

def objects : RedisSet → List StringObject
  | .intset members => members.map StringObject.int
  | .table members => members

/-- `setTypeConvert`. -/
def convert (set : RedisSet) : RedisSet := .table set.objects

/-- `setTypeAdd`, and whether the member is new. -/
def add (settings : Settings) (set : RedisSet) (value : StringObject) : RedisSet × Bool :=
  match set with
  | .table members =>
    if (Keyed.find StringObject.decoded members value.decoded).isSome then (set, false)
    else (.table (members ++ [value]), true)
  | .intset members =>
    match value.asLong with
    | none => (.table (members.map StringObject.int ++ [value]), true)
    | some number =>
      if number ∈ members then (set, false)
      else
        let added := RedisSet.intset (members.orderedInsert (· ≤ ·) number)
        (if settings.setMaxIntsetEntries < added.size then added.convert else added, true)

/-- `setTypeRemove`, and whether the member was there. -/
def remove (set : RedisSet) (value : StringObject) : RedisSet × Bool :=
  match set with
  | .table members =>
    (.table (Keyed.erase StringObject.decoded members value.decoded),
      (Keyed.find StringObject.decoded members value.decoded).isSome)
  | .intset members =>
    match value.asLong with
    | none => (set, false)
    | some number => (.intset (members.erase number), number ∈ members)

/-- `setTypeRandomElement`. The choice stands for the random number. -/
def randomElement (set : RedisSet) (choice : Nat) : Except Fault StringObject :=
  match set with
  | .table members =>
    match members[choice % members.length]? with
    | none => .error .nullPointer
    | some member => .ok member
  | .intset members =>
    match members[choice % members.length]? with
    | none => .error .divisionByZero
    | some member => .ok (.int member)

end RedisSet

/-! ### The commands -/

/-- The end of `saddCommand`, for a set with a version as it is stored and one to come. A member
that is too many has been added when it is found to be so. -/
def addMember (settings : Settings) (client : Client) (value : StringObject)
    (stored version found : UInt16) (set : RedisSet) : Outcome σ :=
  let added := set.add settings value
  if added.2 ∧ fitsLimit added.1.size settings.setMaxSize = false then
    { change := .store (.set (added.1.remove value).1) stored .keep
      code := .errDataLenLimited
      answer := .nothing
      version := found }
  else
    { change := .store (.set added.1) version client.expireOrNot
      code := if added.2 then .ok else .okButAlreadyExist
      answer := .nothing
      version := found }

/-- The version is looked at before the type. -/
def saddCommand (settings : Settings) (client : Client) (member : Bytes) : Action σ
  | none =>
    let value := (StringObject.raw member).tryObjectEncoding
    .ok (addMember settings client value client.firstVersion client.firstVersion 0
      (.create value))
  | some entry =>
    versioned client entry fun version =>
      typed Robj.asSet entry fun set =>
        .ok (addMember settings client (StringObject.raw member).tryObjectEncoding
          entry.version version entry.version set)

/-- The time to expire is changed also when there is no such member. -/
def sremCommand (client : Client) (member : Bytes) : Action σ :=
  onExisting Robj.asSet fun entry set =>
    versioned client entry fun version =>
      let removed := set.remove (StringObject.raw member).tryObjectEncoding
      if removed.2 then
        .ok
          { change := storeUnless (removed.1.size = 0) (.set removed.1) version
              client.expireOrNot
            code := .ok
            answer := .number 1
            version := entry.version }
      else
        .ok
          { change := .expire client.expireOrNot
            code := .okNotExist
            answer := .number 0
            version := entry.version }

def spopCommand (client : Client) (choice : Nat) : Action σ :=
  onExisting Robj.asSet fun entry set =>
    versioned client entry fun version => do
      let element ← set.randomElement choice
      let left := (set.remove element).1
      pure
        { change := storeUnless (left.size = 0) (.set left) version client.expireOrNot
          code := .ok
          answer := .values [.robj element]
          version := entry.version + 1 }

def scardCommand : Action σ :=
  onExisting Robj.asSet fun entry set => .ok (.read (.number set.size) entry.version)

/-- `sinterCommand` with one key. -/
def smembersCommand : Action σ :=
  onExisting Robj.asSet fun entry set =>
    .ok (.read (.values (set.objects.map StringObject.node)) entry.version)

end Tair.Rdb
