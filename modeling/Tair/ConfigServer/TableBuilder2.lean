/-
The second build strategy: the servers of the position with the most servers form one room, all
others the second, and every bucket has copies on at least two positions. The members
`mtokens_per_node_*` and `otokens_per_node_*` that the functions read are assigned nowhere.
-/

import Tair.ConfigServer.TableBuilder

namespace Tair.ConfigServer.TableBuilder2

open Std Tair.Library

/-! ### Single precision

The non-negative values the strategy computes with `float`. They lie between
`2 ^ -32` and `2 ^ 64` when they are not 0, so the exponent needs no bounds. -/

structure Single where
  mantissa : Nat
  exponent : Int
deriving DecidableEq, Repr

namespace Single

def roundEven (num den : Nat) : Nat :=
  if 2 * (num % den) < den ∨ (2 * (num % den) = den ∧ num / den % 2 = 0) then num / den
  else num / den + 1

def ofRatio (num den : Nat) : Single :=
  if num = 0 then ⟨0, 0⟩
  else
    let guess : Int := (num.log2 : Int) - den.log2 - 23
    let scaledNum (exponent : Int) : Nat := num * 2 ^ (-exponent).toNat
    let scaledDen (exponent : Int) : Nat := den * 2 ^ exponent.toNat
    let exponent := if scaledNum guess < 2 ^ 23 * scaledDen guess then guess - 1 else guess
    ⟨roundEven (scaledNum exponent) (scaledDen exponent), exponent⟩

def ofNat (value : Nat) : Single := ofRatio value 1

def div (left right : Single) : Single :=
  ofRatio (left.mantissa * 2 ^ (left.exponent - right.exponent).toNat)
    (right.mantissa * 2 ^ (right.exponent - left.exponent).toNat)

def mul (left right : Single) : Single :=
  ofRatio (left.mantissa * right.mantissa * 2 ^ (left.exponent + right.exponent).toNat)
    (2 ^ (-(left.exponent + right.exponent)).toNat)

/-- The conversion to `int`. -/
def trunc (value : Single) : Nat :=
  value.mantissa * 2 ^ value.exponent.toNat / 2 ^ (-value.exponent).toNat

def exceeds (value : Single) (bound : ℚ) : Bool :=
  bound.num * 2 ^ (-value.exponent).toNat <
    (value.mantissa * 2 ^ value.exponent.toNat * bound.den : Nat)

end Single

/-- What `strtof` can return. -/
inductive ChangeRatio where
  | notANumber
  | infinite (negative : Bool)
  | finite (value : ℚ)

def ChangeRatio.exceededBy (ratio : ChangeRatio) (value : Single) : Bool :=
  match ratio with
  | .notANumber => false
  | .infinite negative => negative
  | .finite bound => value.exceeds bound

/-- The `double` written `0.9999`. -/
def nearlyOne : ℚ := mkRat 4503149267407759 4503599627370496

/-! ### The strategy -/

structure Rooms where
  buildStatNormal : Bool
  statChangeRatio : ChangeRatio
  posMax : Int
  maxMachineRoomId : UInt32
  mtokensPerNodeMin : Int
  mtokensPerNodeMaxCount : Int
  otokensPerNodeMin : Int
  otokensPerNodeMaxCount : Int

variable {shape : Shape}

def posLimit (table : HashTable shape) (node : ServerIdType) (line : shape.Line)
    (idx : shape.Bucket) : TreeSet UInt32 :=
  (shape.others line).foldl (fun limit other => limit.insert (table.get other idx).second)
    ((∅ : TreeSet UInt32).insert node.second)

def rowStatus (rooms : Rooms) (table : HashTable shape) (node : ServerIdType) (line : shape.Line)
    (idx : shape.Bucket) : NodeStatus :=
  if (shape.others line).any (fun other => (table.get other idx).first = node.first) then .sameNode
  else if rooms.buildStatNormal ∧ line ≠ shape.master ∧ (posLimit table node line idx).size < 2 then
    .samePos
  else .nodeOK

def getTokensPerNode (builder : TableBuilder Rooms) (node : ServerIdType) : Int :=
  if node.second = builder.derived.maxMachineRoomId then builder.derived.mtokensPerNodeMin
  else builder.derived.otokensPerNodeMin

def getTokensMaxCount (builder : TableBuilder Rooms) (node : ServerIdType) : Int :=
  if node.second = builder.derived.maxMachineRoomId then builder.derived.mtokensPerNodeMaxCount
  else builder.derived.otokensPerNodeMaxCount

def isThisNodeOK (builder : TableBuilder Rooms) (node : ServerIdType) (line : shape.Line)
    (idx : shape.Bucket) (table : HashTable shape) (level : Consider) (nodeInUse : Bool) :
    NodeStatus :=
  builder.nodeStatus node line level nodeInUse (getTokensPerNode builder node)
    (getTokensMaxCount builder node) (rowStatus builder.derived table node line idx)

def posCount (posMask : UInt64) (serverIds : List UInt64) : TreeMap UInt32 Int :=
  serverIds.foldl (fun counts serverId =>
    let pos := (nodeOf posMask serverId).second
    counts.insert pos (counts.getD pos 0 + 1)) ∅

/-- The largest position, the first one among equals. With no server at all the
room stays what it was. -/
def maxRoom (counts : TreeMap UInt32 Int) (before : UInt32) : Int × UInt32 :=
  counts.toList.foldl (fun best entry =>
    if entry.2 > best.1 then (entry.2, entry.1) else best) (0, before)

/-- With no server the ratio is not a number, which exceeds nothing; but then the
servers are fewer than the copies. -/
def statNormal (shape : Shape) (statChangeRatio : ChangeRatio) (servers : Nat) (posMax : Int) :
    Bool :=
  let diffServer := ((servers : Int) - posMax - posMax).natAbs
  let ratio := (Single.ofNat diffServer).div (Single.ofNat posMax.toNat)
  !(statChangeRatio.exceededBy ratio || servers < shape.copyCount || ratio.exceeds nearlyOne)

def setAvailableServer (shape : Shape) (builder : TableBuilder Rooms) (serverIds : List UInt64) :
    TableBuilder Rooms :=
  let listed := builder.setAvailableServer serverIds
  let room := maxRoom (posCount builder.posMask serverIds) builder.derived.maxMachineRoomId
  { listed with
    derived := { builder.derived with
      posMax := room.1
      maxMachineRoomId := room.2
      buildStatNormal :=
        statNormal shape builder.derived.statChangeRatio listed.availableServer.size room.1 } }

/-- The quotas of one room: the first `maxCount` servers get one more. -/
def assignRoom (tokensMin maxCount : Int) (servers : List ServerIdType) (capable : TokenCount) :
    TokenCount :=
  assignCapable (fun _ _ maxS => maxS < maxCount) tokensMin servers 0 0 capable

/-- The quotas when the statistics are normal, which the source asserts. The
buckets of the large room are its share of all servers, but at most all copies
but one; the other room gets the rest. -/
def caculateCapable (shape : Shape) (builder : TableBuilder Rooms) : Capable Rooms :=
  let share := (Single.ofNat builder.derived.posMax.toNat).div
    (Single.ofNat builder.availableServer.size)
  let inRoom := builder.availableServer.toList.filter
    (fun node => node.second = builder.derived.maxMachineRoomId)
  let outside := builder.availableServer.toList.filter
    (fun node => node.second ≠ builder.derived.maxMachineRoomId)
  let mservers := builder.derived.posMax
  let mmaster : Int := ((Single.ofNat shape.bucketCount).mul share).trunc
  let balance : Int := ((Single.ofNat (shape.bucketCount * shape.copyCount)).mul share).trunc
  let mtotal : Int := min (shape.bucketCount * (shape.copyCount - 1)) balance
  let mtokenMin := mtotal.tdiv mservers
  let mtokenMaxCount := mtotal - mtokenMin * mservers
  let mmasterMin := mmaster.tdiv mservers
  let mmasterMaxCount := mmaster - mmasterMin * mservers
  let oservers := builder.availableServer.size - mservers
  let ototal : Int := shape.bucketCount * shape.copyCount -
    (mtokenMin * (mservers - mtokenMaxCount) + (mtokenMin + 1) * mtokenMaxCount)
  let omaster : Int := shape.bucketCount -
    (mmasterMin * (mservers - mmasterMaxCount) + (mmasterMin + 1) * mmasterMaxCount)
  let otokenMin := ototal.tdiv oservers
  let otokenMaxCount := ototal - otokenMin * oservers
  let omasterMin := omaster.tdiv oservers
  let omasterMaxCount := omaster - omasterMin * oservers
  { serverCapable :=
      assignRoom otokenMin otokenMaxCount outside (assignRoom mtokenMin mtokenMaxCount inRoom ∅)
    masterServerCapable :=
      assignRoom omasterMin omasterMaxCount outside (assignRoom mmasterMin mmasterMaxCount inRoom ∅)
    derived := builder.derived }

def strategy (shape : Shape) : Strategy shape Rooms where
  isThisNodeOK := isThisNodeOK
  caculateCapable := caculateCapable shape
  getTokensPerNode := getTokensPerNode

/-- The override of `rebuild_table`. `none` is the failing assertion of
`caculate_capable`, which a single copy always runs into. `dest` is the table the
caller passes for the result; a refused build leaves it alone. -/
def rebuildTable (builder : TableBuilder Rooms) (source dest : HashTable shape)
    (noQuickTable : Bool) : Option (TableBuilder.Rebuilt shape Rooms) :=
  if builder.derived.buildStatNormal = false then some ⟨.buildError, ⟨builder, dest⟩⟩
  else if shape.copyCount ≤ 1 then none
  else some (builder.rebuildTable (strategy shape) source noQuickTable)

end Tair.ConfigServer.TableBuilder2
